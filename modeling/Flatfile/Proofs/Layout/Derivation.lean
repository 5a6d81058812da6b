import Flatfile.Proofs.Layout.Grammar
import Flatfile.Proofs.Layout.Names
import Flatfile.Proofs.Layout.Words

/-!
# Lines and their derivations

A line is read exactly if it has a valid derivation, and as what that derivation spells: directives,
conditions and fields. In one direction each part that is read gives a part of a tree
(`directive_derived`, `condition_derived`, `field_derived`); in the other the reader finds the parts
of a given tree, where the kind of the next token decides (`directive_tree`, `condition_tree`,
`field_tree`). So the fields of a layout have whatever a valid tree has (`parse_fieldTrees`).
-/

namespace Flatfile.Layout

namespace Parser

variable {stop : Stop} {e t : Token} {kind : TokenKind} {kinds : List TokenKind}
  {ts rest : List Token} {line : Line}

-- ------------------------------------------------------------------
-- Tokens
-- ------------------------------------------------------------------

theorem expect_leaf (stop : Stop) (t : Leaf kinds) (rest : List Token) :
    expect stop kinds (t.val :: rest) = .ok (t.val, rest) := by
  simp [expect, t.property]

theorem expect_derived (h : expect stop kinds ts = .ok (t, rest)) :
    ∃ leaf : Leaf kinds, leaf.val = t ∧ ts = leaf.val :: rest := by
  obtain ⟨hk, hts⟩ := expect_ok h
  exact ⟨⟨t, hk⟩, rfl, hts⟩

def NotAt (kind : TokenKind) (ts : List Token) : Prop :=
  ∀ t ∈ ts.head?, t.kind ≠ kind

theorem notAt_leaf (t : Leaf kinds) (rest : List Token) (h : kind ∉ kinds) :
    NotAt kind (t.val :: rest) := by
  rintro _ ⟨⟩ hk
  exact h (hk ▸ t.property)

theorem notAt_optional (found : Option (Leaf kinds)) (h : kind ∉ kinds) (hrest : NotAt kind rest) :
    NotAt kind (Leaf.optional found ++ rest) := by
  cases found with
  | none => exact hrest
  | some t => exact notAt_leaf t rest h

theorem takeIf_some (t : Leaf [kind]) (rest : List Token) :
    takeIf (.ok e) kind (t.val :: rest) = .ok (some t.val, rest) := by
  rw [takeIf, if_pos (List.mem_singleton.1 t.property)]

theorem takeIf_leaf (found : Option (Leaf [kind])) (h : found = none → NotAt kind rest) :
    takeIf (.ok e) kind (Leaf.optional found ++ rest) = .ok (found.map (·.val), rest) := by
  cases found with
  | some t => exact takeIf_some t rest
  | none =>
    cases rest with
    | nil => rfl
    | cons t rest =>
      have ht : t.kind ≠ kind := h rfl t rfl
      simp [takeIf, Leaf.optional, ht]

theorem takeIf_derived {found : Option Token} (h : takeIf stop kind ts = .ok (found, rest)) :
    ∃ leaf : Option (Leaf [kind]), leaf.map (·.val) = found ∧ ts = Leaf.optional leaf ++ rest := by
  rcases takeIf_ok h with ⟨t, rfl, hk, rfl⟩ | ⟨rfl, rfl⟩
  · exact ⟨some ⟨t, List.mem_singleton.2 hk⟩, rfl, rfl⟩
  · exact ⟨none, rfl, rfl⟩

theorem literalOf_ok {l : Literal} (h : literalOf t = .ok l) : t.literal = l := by
  unfold literalOf at h
  split at h
  · rename_i hv
    rw [Token.literal, hv]
    exact Except.ok.inj h
  · simp at h

theorem literalOf_leaf (t : Leaf TokenKind.literals) (h : t.val.kind.Carries t.val.value) :
    literalOf t.val = .ok t.val.literal := by
  obtain ⟨l, hl⟩ := h.literal t.property
  simp [literalOf, Token.literal, hl]

theorem expectLiteral_derived {l : Literal} (h : expectLiteral stop ts = .ok (l, rest)) :
    ∃ leaf : Leaf TokenKind.literals, leaf.val.literal = l ∧ ts = leaf.val :: rest := by
  obtain ⟨⟨t, rest'⟩, ht, h⟩ := bind_eq_ok.1 h
  obtain ⟨l', hl, h⟩ := bind_eq_ok.1 h
  obtain ⟨rfl, rfl⟩ := Prod.mk.inj (Except.ok.inj h)
  obtain ⟨leaf, rfl, hts⟩ := expect_derived ht
  exact ⟨leaf, literalOf_ok hl, hts⟩

theorem expectLiteral_leaf (stop : Stop) (t : Leaf TokenKind.literals) (rest : List Token)
    (h : t.val.kind.Carries t.val.value) :
    expectLiteral stop (t.val :: rest) = .ok (t.val.literal, rest) :=
  bind_eq_ok.2 ⟨_, expect_leaf stop t rest, bind_eq_ok.2 ⟨_, literalOf_leaf t h, rfl⟩⟩

theorem expectEnd_ok (h : expectEnd stop ts = .ok ()) : ts = [] ∧ ∃ e, stop = .ok e := by
  cases ts with
  | nil =>
    obtain ⟨e, he, -⟩ := map_eq_ok.1 h
    exact ⟨rfl, e, he⟩
  | cons t ts => simp [expectEnd] at h

theorem regular_eol (hl : line.Regular) (h : line.stop = .ok e) :
    ∃ eol : Leaf [.endOfLine], eol.val = e :=
  ⟨⟨e, List.mem_singleton.2 (hl.stop e h)⟩, rfl⟩

-- ------------------------------------------------------------------
-- Directives
-- ------------------------------------------------------------------

theorem directive_derived {d : Directive} (hl : line.Regular) (h : directive line = .ok d) :
    ∃ n : DirectiveTree, n.line = line ∧ n.spell = d := by
  obtain ⟨ts, stop⟩ := line
  obtain ⟨⟨header, rest₁⟩, h₁, h⟩ := bind_eq_ok.1 h
  obtain ⟨⟨value, rest₂⟩, h₂, h⟩ := bind_eq_ok.1 h
  obtain ⟨header, rfl, rfl⟩ := expect_derived h₁
  obtain ⟨value, rfl, rfl⟩ := expect_derived h₂
  have hvalue : ∃ l, value.val.literal = l ∧ (expectEnd stop rest₂ >>= fun _ => .ok
      { name := header.val.nameOrRaw, value := l, line := header.val.line,
        column := header.val.column }) = .ok d := by
    dsimp only at h
    split at h
    · rename_i hk
      obtain ⟨n, hn⟩ := (hl.carries value.val (by simp)).name hk
      exact ⟨.string value.val.nameOrRaw, by simp [Token.literal, hn], h⟩
    · obtain ⟨l, hliteral, h⟩ := bind_eq_ok.1 h
      exact ⟨l, literalOf_ok hliteral, h⟩
  obtain ⟨l, rfl, h⟩ := hvalue
  obtain ⟨_, hend, h⟩ := bind_eq_ok.1 h
  obtain ⟨rfl, e, rfl⟩ := expectEnd_ok hend
  obtain ⟨eol, rfl⟩ := regular_eol hl rfl
  obtain rfl := Except.ok.inj h
  exact ⟨⟨header, value, eol⟩, rfl, rfl⟩

theorem directive_tree (n : DirectiveTree) (hl : n.line.Regular) :
    directive n.line = .ok n.spell := by
  refine bind_eq_ok.2 ⟨_, expect_leaf _ n.header _, ?_⟩
  refine bind_eq_ok.2 ⟨_, expect_leaf _ n.value _, ?_⟩
  have hcarries := hl.carries n.value.val (by simp [DirectiveTree.line])
  dsimp only
  split
  · rename_i hk
    obtain ⟨m, hm⟩ := hcarries.name hk
    have hliteral : n.value.val.literal = .string n.value.val.nameOrRaw := by
      simp [Token.literal, hm]
    rw [DirectiveTree.spell, hliteral]
    rfl
  · rename_i hk
    have hmem : n.value.val.kind ∈ TokenKind.literals := by
      rcases List.mem_append.1 n.value.property with h | h
      · exact h
      · exact absurd (List.mem_singleton.1 h) hk
    exact bind_eq_ok.2 ⟨_, literalOf_leaf ⟨_, hmem⟩ hcarries, rfl⟩

-- ------------------------------------------------------------------
-- Conditions
-- ------------------------------------------------------------------

abbrev MoreLiterals := List (Leaf [.comma] × Leaf TokenKind.literals)

def MoreLiterals.tokens (more : MoreLiterals) : List Token :=
  more.flatMap fun (comma, value) => [comma.val, value.val]

def MoreLiterals.spell (more : MoreLiterals) : List Literal :=
  more.map fun (_, value) => value.val.literal

theorem moreValues_derived {ls : List Literal} (h : moreValues stop ts = .ok ls) :
    ∃ more : MoreLiterals, (∃ e, stop = .ok e) ∧ more.tokens = ts ∧ more.spell = ls := by
  fun_induction moreValues stop ts generalizing ls with
  | case1 =>
    obtain ⟨e, he, rfl⟩ := map_eq_ok.1 h
    exact ⟨[], ⟨e, he⟩, rfl, rfl⟩
  | case2 t hk => exact absurd h refuseEnd_ne_ok
  | case3 t hk v rest ih =>
    obtain ⟨⟨l, _⟩, hl, h⟩ := bind_eq_ok.1 h
    obtain ⟨ls', hls, h⟩ := bind_eq_ok.1 h
    obtain rfl := Except.ok.inj h
    obtain ⟨leaf, rfl, hleaf⟩ := expectLiteral_derived hl
    obtain ⟨rfl, -⟩ := List.cons.inj hleaf
    obtain ⟨more, hstop, rfl, rfl⟩ := ih hls
    exact ⟨(⟨t, by simp [hk]⟩, leaf) :: more, hstop, rfl, rfl⟩
  | case4 => simp at h

theorem moreValues_tree (more : MoreLiterals) (hc : ∀ t ∈ more.tokens, t.kind.Carries t.value) :
    moreValues (.ok e) more.tokens = .ok more.spell := by
  induction more with
  | nil => rfl
  | cons p more ih =>
    obtain ⟨comma, value⟩ := p
    simp only [MoreLiterals.tokens, List.flatMap_cons, List.cons_append, List.nil_append,
      List.forall_mem_cons] at hc ih ⊢
    rw [moreValues, if_pos (List.mem_singleton.1 comma.property)]
    refine bind_eq_ok.2 ⟨_, expectLiteral_leaf _ value [] hc.2.1, ?_⟩
    exact bind_eq_ok.2 ⟨_, ih hc.2.2, rfl⟩

theorem condition_derived {d : ConditionDecl} (hl : line.Regular) (h : condition line = .ok d) :
    ∃ n : ConditionTree, n.line = line ∧ n.spell = d := by
  obtain ⟨ts, stop⟩ := line
  obtain ⟨⟨name, rest₁⟩, h₁, h⟩ := bind_eq_ok.1 h
  obtain ⟨⟨equals, rest₂⟩, h₂, h⟩ := bind_eq_ok.1 h
  obtain ⟨⟨l, rest₃⟩, h₃, h⟩ := bind_eq_ok.1 h
  obtain ⟨ls, hmore, h⟩ := bind_eq_ok.1 h
  obtain rfl := Except.ok.inj h
  obtain ⟨name, rfl, rfl⟩ := expect_derived h₁
  obtain ⟨equals, rfl, rfl⟩ := expect_derived h₂
  obtain ⟨first, rfl, rfl⟩ := expectLiteral_derived h₃
  obtain ⟨more, ⟨e, rfl⟩, rfl, rfl⟩ := moreValues_derived hmore
  obtain ⟨eol, rfl⟩ := regular_eol hl rfl
  exact ⟨⟨name, equals, ⟨first, more⟩, eol⟩, rfl, rfl⟩

theorem condition_tree (n : ConditionTree) (hl : n.line.Regular) :
    condition n.line = .ok n.spell := by
  obtain ⟨name, equals, ⟨first, more⟩, eol⟩ := n
  have hc := hl.carries
  simp only [ConditionTree.line, LiteralsTree.tokens, List.forall_mem_cons] at hc
  refine bind_eq_ok.2 ⟨_, expect_leaf _ name _, ?_⟩
  refine bind_eq_ok.2 ⟨_, expect_leaf _ equals _, ?_⟩
  refine bind_eq_ok.2 ⟨_, expectLiteral_leaf _ first _ hc.2.2.1, ?_⟩
  exact bind_eq_ok.2 ⟨_, moreValues_tree more hc.2.2.2, rfl⟩

-- ------------------------------------------------------------------
-- Convertors
-- ------------------------------------------------------------------

theorem argumentList_derived {ls : List Literal} (h : argumentList stop ts = .ok (ls, rest)) :
    ∃ (n : LiteralsTree) (right : Leaf [.rightParen]),
      n.tokens ++ right.val :: rest = ts ∧ n.spell = ls := by
  fun_induction argumentList stop ts generalizing ls rest with
  | case1 => exact absurd h refuseEnd_ne_ok
  | case2 t =>
    obtain ⟨_, -, h⟩ := bind_eq_ok.1 h
    exact absurd h refuseEnd_ne_ok
  | case3 t separator after ih =>
    obtain ⟨⟨l, _⟩, hl, h⟩ := bind_eq_ok.1 h
    obtain ⟨⟨sep, _⟩, hsep, h⟩ := bind_eq_ok.1 h
    obtain ⟨first, hl, hfirst⟩ := expectLiteral_derived hl
    obtain ⟨hkind, hcons⟩ := expect_ok hsep
    split at h
    · rename_i hright
      obtain ⟨rfl, rfl⟩ := Prod.mk.inj (Except.ok.inj h)
      refine ⟨⟨first, []⟩, ⟨separator, List.mem_singleton.2 hright⟩, ?_, congrArg ([·]) hl⟩
      rw [(List.cons.inj hfirst).1]
      rfl
    · rename_i hright
      obtain ⟨⟨ls', rest'⟩, hls, h⟩ := bind_eq_ok.1 h
      obtain ⟨rfl, rfl⟩ := Prod.mk.inj (Except.ok.inj h)
      obtain ⟨⟨second, more⟩, right, rfl, rfl⟩ := ih hls
      obtain ⟨rfl, -⟩ := List.cons.inj hcons
      have hcomma : separator.kind ∈ [TokenKind.comma] := by simpa [hright] using hkind
      refine ⟨⟨first, (⟨separator, hcomma⟩, second) :: more⟩, right, ?_, congrArg (· :: _) hl⟩
      rw [(List.cons.inj hfirst).1]
      rfl

theorem argumentList_tree (stop : Stop) (n : LiteralsTree) (right : Leaf [.rightParen])
    (rest : List Token) (hc : ∀ t ∈ n.tokens, t.kind.Carries t.value) :
    argumentList stop (n.tokens ++ right.val :: rest) = .ok (n.spell, rest) := by
  obtain ⟨first, more⟩ := n
  induction more generalizing first with
  | nil =>
    have hfirst := expectLiteral_leaf stop first [] (hc _ List.mem_cons_self)
    simp only [LiteralsTree.tokens, List.flatMap_nil, List.cons_append, List.nil_append]
    rw [argumentList]
    refine bind_eq_ok.2 ⟨_, hfirst, ?_⟩
    have hright : right.val.kind = .rightParen := List.mem_singleton.1 right.property
    refine bind_eq_ok.2 ⟨(right.val, []), by simp [expect, hright], ?_⟩
    rw [if_pos hright]
    rfl
  | cons p more ih =>
    obtain ⟨comma, second⟩ := p
    have hc' : ∀ t ∈ LiteralsTree.tokens ⟨second, more⟩, t.kind.Carries t.value := by
      intro t ht
      exact hc t (List.mem_cons_of_mem _ (List.mem_cons_of_mem _ ht))
    have hfirst := expectLiteral_leaf stop first [] (hc _ List.mem_cons_self)
    have hcomma : comma.val.kind = .comma := List.mem_singleton.1 comma.property
    simp only [LiteralsTree.tokens, List.flatMap_cons, List.cons_append, List.nil_append]
    rw [argumentList]
    refine bind_eq_ok.2 ⟨_, hfirst, ?_⟩
    refine bind_eq_ok.2 ⟨(comma.val, []), by simp [expect, hcomma], ?_⟩
    rw [if_neg (by simp [hcomma])]
    exact bind_eq_ok.2 ⟨_, ih second hc', rfl⟩

theorem arguments_derived {ls : List Literal} (h : arguments stop ts = .ok (ls, rest)) :
    ∃ args : Option ArgsTree, args.elim [] ArgsTree.tokens ++ rest = ts ∧
      args.elim [] ArgsTree.spell = ls := by
  obtain ⟨⟨left, inside⟩, hleft, h⟩ := bind_eq_ok.1 h
  obtain ⟨left, rfl, rfl⟩ := takeIf_derived hleft
  cases left with
  | none =>
    obtain ⟨rfl, rfl⟩ := Prod.mk.inj (Except.ok.inj h)
    exact ⟨none, rfl, rfl⟩
  | some left =>
    obtain ⟨⟨right, after⟩, hright, h⟩ := bind_eq_ok.1 h
    obtain ⟨right, rfl, rfl⟩ := takeIf_derived hright
    cases right with
    | none =>
      obtain ⟨n, right, hn, rfl⟩ := argumentList_derived h
      refine ⟨some ⟨left, some n, right⟩, ?_, rfl⟩
      simp only [Leaf.optional, Option.map_none, Option.toList_none, List.nil_append] at hn
      simp [ArgsTree.tokens, Leaf.optional, ← hn]
    | some right =>
      obtain ⟨rfl, rfl⟩ := Prod.mk.inj (Except.ok.inj h)
      exact ⟨some ⟨left, none, right⟩, rfl, rfl⟩

theorem arguments_tree (args : Option ArgsTree) (hrest : NotAt .leftParen rest)
    (hc : ∀ t ∈ args.elim [] ArgsTree.tokens, t.kind.Carries t.value) :
    arguments (.ok e) (args.elim [] ArgsTree.tokens ++ rest) =
      .ok (args.elim [] ArgsTree.spell, rest) := by
  cases args with
  | none => exact bind_eq_ok.2 ⟨_, takeIf_leaf none fun _ => hrest, rfl⟩
  | some n =>
    obtain ⟨left, values, right⟩ := n
    cases values with
    | none =>
      refine bind_eq_ok.2 ⟨_, takeIf_some left _, ?_⟩
      exact bind_eq_ok.2 ⟨_, takeIf_some right _, rfl⟩
    | some values =>
      have hvalues : ∀ t ∈ values.tokens, t.kind.Carries t.value := fun t ht =>
        hc t (by simp [ArgsTree.tokens, ht])
      have htokens : ArgsTree.tokens ⟨left, some values, right⟩ ++ rest =
          left.val :: (values.tokens ++ right.val :: rest) := by
        simp [ArgsTree.tokens]
      rw [Option.elim_some, htokens]
      refine bind_eq_ok.2 ⟨_, takeIf_some left _, ?_⟩
      refine bind_eq_ok.2 ⟨_, takeIf_leaf none fun _ => notAt_leaf values.first _ (by decide), ?_⟩
      exact argumentList_tree _ values right rest hvalues

def Convertors.add (acc : Convertors) (c : ConvertorTree) : Convertors :=
  if c.isEncoding then { acc with encoding := c.encoding? }
  else { acc with converters := acc.converters ++ [c.spell] }

/-- An encoding has a text as its one argument. -/
def EncodingsValid (cs : List ConvertorTree) : Prop :=
  ∀ c ∈ cs, c.isEncoding → c.encoding?.isSome

variable {acc acc' found : Convertors} {field : String} {dataType : CodecCall}

theorem addCall_later (name : Leaf [.identifier]) (args : Option ArgsTree)
    (hd : acc.dataType = some dataType) :
    acc.addCall (ConvertorTree.call name args).spell = .ok acc' ↔
      EncodingsValid [.call name args] ∧ acc.add (.call name args) = acc' := by
  have hname : Text.sameName (ConvertorTree.call name args).spell.name encodingConverter =
      (ConvertorTree.call name args).isEncoding := rfl
  simp only [EncodingsValid, List.mem_singleton, forall_eq, Convertors.add, Convertors.addCall, hd,
    hname]
  cases (ConvertorTree.call name args).isEncoding with
  | false => simp
  | true =>
    simp only [if_true, ConvertorTree.encoding?]
    generalize (ConvertorTree.call name args).spell.args = given
    split <;> simp

theorem addLiteral_later (t : Leaf TokenKind.literals) (hd : acc.dataType = some dataType)
    (h : acc.addLiteral field t.val = .ok acc') : acc.add (.literal t) = acc' := by
  obtain ⟨_, converters, encoding⟩ := acc
  obtain rfl := hd
  obtain ⟨l, hl, h⟩ := bind_eq_ok.1 h
  obtain rfl := Except.ok.inj h
  obtain rfl := literalOf_ok hl
  rfl

theorem addLiteral_leaf (field : String) (t : Leaf TokenKind.literals)
    (hd : acc.dataType = some dataType)
    (hc : t.val.kind.Carries t.val.value) :
    acc.addLiteral field t.val = .ok (acc.add (.literal t)) := by
  obtain ⟨_, converters, encoding⟩ := acc
  obtain rfl := hd
  exact bind_eq_ok.2 ⟨_, literalOf_leaf t hc, rfl⟩

theorem Convertors.add_dataType (acc : Convertors) (c : ConvertorTree) :
    (acc.add c).dataType = acc.dataType := by
  rw [Convertors.add]
  split <;> rfl

theorem convertors_derived_later (hd : acc.dataType = some dataType)
    (h : convertors stop field acc ts = .ok found) :
    ∃ cs : List ConvertorTree, (∃ e, stop = .ok e) ∧ cs.flatMap (·.tokens) = ts ∧
      EncodingsValid cs ∧ cs.foldl Convertors.add acc = found := by
  fun_induction convertors stop field acc ts with
  | case1 acc =>
    obtain ⟨e, he, rfl⟩ := map_eq_ok.1 h
    exact ⟨[], ⟨e, he⟩, rfl, by simp [EncodingsValid], rfl⟩
  | case2 | case3 | case5 | case7 => simp at h
  | case4 acc t rest hk args after hargs acc' hadd ih =>
    obtain ⟨args, rfl, rfl⟩ := arguments_derived hargs
    obtain ⟨hvalid, rfl⟩ := (addCall_later ⟨t, List.mem_singleton.2 hk⟩ args hd).1 hadd
    obtain ⟨cs, hstop, rfl, hcs, rfl⟩ := ih ((acc.add_dataType _).trans hd) h
    refine ⟨.call ⟨t, List.mem_singleton.2 hk⟩ args :: cs, hstop, rfl, ?_, rfl⟩
    exact List.forall_mem_cons.2 ⟨List.forall_mem_singleton.1 hvalid, hcs⟩
  | case6 acc t rest hk hl acc' hadd ih =>
    obtain rfl := addLiteral_later ⟨t, hl⟩ hd hadd
    obtain ⟨cs, hstop, rfl, hcs, rfl⟩ := ih ((acc.add_dataType _).trans hd) h
    exact ⟨.literal ⟨t, hl⟩ :: cs, hstop, rfl, List.forall_mem_cons.2 ⟨nofun, hcs⟩, rfl⟩

theorem notAt_convertors (cs : List ConvertorTree) (hk : kind ∉ .identifier :: TokenKind.literals) :
    NotAt kind (cs.flatMap (·.tokens)) := by
  cases cs with
  | nil => simp [NotAt]
  | cons c cs =>
    cases c with
    | call name args =>
      exact notAt_leaf name _ fun h => hk (List.mem_cons.2 (.inl (by simpa using h)))
    | literal value => exact notAt_leaf value _ fun h => hk (List.mem_cons_of_mem _ h)

theorem convertors_call (name : Leaf [.identifier]) (args : Option ArgsTree)
    (hrest : NotAt .leftParen rest)
    (hc : ∀ t ∈ args.elim [] ArgsTree.tokens, t.kind.Carries t.value)
    (h : acc.addCall (ConvertorTree.call name args).spell = .ok acc') :
    convertors (.ok e) field acc ((ConvertorTree.call name args).tokens ++ rest) =
      convertors (.ok e) field acc' rest := by
  have hk : name.val.kind = .identifier := List.mem_singleton.1 name.property
  have hargs := arguments_tree (e := e) args hrest hc
  simp only [ConvertorTree.tokens, List.cons_append]
  rw [convertors, if_pos hk]
  split
  · simp_all
  · rename_i found after hfound
    obtain ⟨rfl, rfl⟩ := Prod.mk.inj (Except.ok.inj (hfound.symm.trans hargs))
    split
    · simp_all [ConvertorTree.spell]
    · simp_all [ConvertorTree.spell]

theorem convertors_literal (t : Leaf TokenKind.literals)
    (h : acc.addLiteral field t.val = .ok acc') :
    convertors stop field acc ((ConvertorTree.literal t).tokens ++ rest) =
      convertors stop field acc' rest := by
  have hk : t.val.kind ≠ .identifier := fun hk => absurd (hk ▸ t.property) (by decide)
  simp only [ConvertorTree.tokens, List.cons_append, List.nil_append]
  rw [convertors, if_neg hk, if_pos t.property, h]

theorem convertors_tree_later (cs : List ConvertorTree) (hd : acc.dataType = some dataType)
    (hc : ∀ t ∈ cs.flatMap (·.tokens), t.kind.Carries t.value) (hv : EncodingsValid cs) :
    convertors (.ok e) field acc (cs.flatMap (·.tokens)) = .ok (cs.foldl Convertors.add acc) := by
  induction cs generalizing acc with
  | nil =>
    rw [List.flatMap_nil, convertors]
    rfl
  | cons c cs ih =>
    obtain ⟨hvalid, hcs⟩ := List.forall_mem_cons.1 hv
    rw [List.flatMap_cons] at hc ⊢
    obtain ⟨hhead, htail⟩ := List.forall_mem_append.1 hc
    have hrest := ih ((acc.add_dataType c).trans hd) htail hcs
    cases c with
    | call name args =>
      have hadd := (addCall_later name args hd).2 ⟨List.forall_mem_singleton.2 hvalid, rfl⟩
      have hparen : NotAt .leftParen (cs.flatMap (·.tokens)) := notAt_convertors cs (by decide)
      rw [convertors_call name args hparen (List.forall_mem_cons.1 hhead).2 hadd]
      exact hrest
    | literal value =>
      have hadd := addLiteral_leaf field value hd (hhead value.val List.mem_cons_self)
      rw [convertors_literal value hadd]
      exact hrest

def Convertors.of (cs : List ConvertorTree) : Convertors :=
  { dataType := cs.head?.map (·.spell)
    converters := (cs.tail.filter (!·.isEncoding)).map (·.spell)
    encoding := (cs.tail.filter (·.isEncoding)).getLast?.bind (·.encoding?) }

theorem Convertors.foldl_add (cs : List ConvertorTree) (hv : EncodingsValid cs)
    (acc : Convertors) :
    cs.foldl Convertors.add acc =
      { dataType := acc.dataType
        converters := acc.converters ++ (cs.filter (!·.isEncoding)).map (·.spell)
        encoding := ((cs.filter (·.isEncoding)).getLast?.bind (·.encoding?)).or acc.encoding } := by
  induction cs generalizing acc with
  | nil => simp
  | cons c cs ih =>
    obtain ⟨hc, hcs⟩ := List.forall_mem_cons.1 hv
    rw [List.foldl_cons, ih hcs, Convertors.add]
    cases he : c.isEncoding with
    | false => simp [he]
    | true =>
      obtain ⟨encoding, hencoding⟩ := Option.isSome_iff_exists.1 (hc he)
      simp only [he, if_true, List.filter_cons, Bool.not_true, Bool.false_eq_true, if_false,
        List.getLast?_cons, Option.bind_some]
      cases hlast : (cs.filter (·.isEncoding)).getLast? with
      | none => simp [hencoding]
      | some last =>
        have hmem := List.mem_filter.1 (List.mem_of_getLast? hlast)
        obtain ⟨other, hother⟩ := Option.isSome_iff_exists.1 (hcs last hmem.1 hmem.2)
        simp [hother]

theorem convertors_derived (h : convertors stop field {} ts = .ok found) :
    ∃ cs : List ConvertorTree, (∃ e, stop = .ok e) ∧ cs.flatMap (·.tokens) = ts ∧
      (∀ c ∈ cs.head?, c.isCall) ∧ EncodingsValid cs.tail ∧ Convertors.of cs = found := by
  cases ts with
  | nil =>
    rw [convertors] at h
    obtain ⟨e, he, rfl⟩ := map_eq_ok.1 h
    exact ⟨[], ⟨e, he⟩, rfl, by simp, by simp [EncodingsValid], rfl⟩
  | cons t rest =>
    rw [convertors] at h
    split at h
    · rename_i hk
      split at h
      · simp at h
      · rename_i args after hargs
        obtain ⟨args, rfl, rfl⟩ := arguments_derived hargs
        obtain ⟨cs, hstop, rfl, hcs, rfl⟩ := convertors_derived_later rfl h
        refine ⟨.call ⟨t, List.mem_singleton.2 hk⟩ args :: cs, hstop, rfl, ?_, hcs, ?_⟩
        · rintro _ ⟨⟩
          rfl
        · rw [Convertors.foldl_add cs hcs]
          simp [Convertors.of, ConvertorTree.spell]
    · split at h <;> simp [Convertors.addLiteral] at h

theorem convertors_tree (field : String) (cs : List ConvertorTree)
    (hc : ∀ t ∈ cs.flatMap (·.tokens), t.kind.Carries t.value) (hhead : ∀ c ∈ cs.head?, c.isCall)
    (hv : EncodingsValid cs.tail) :
    convertors (.ok e) field {} (cs.flatMap (·.tokens)) = .ok (Convertors.of cs) := by
  cases cs with
  | nil =>
    rw [List.flatMap_nil, convertors]
    rfl
  | cons c cs =>
    cases c with
    | literal value => exact absurd (hhead _ rfl) (by simp [ConvertorTree.isCall])
    | call name args =>
      rw [List.flatMap_cons] at hc ⊢
      obtain ⟨hfirst, htail⟩ := List.forall_mem_append.1 hc
      have hparen : NotAt .leftParen (cs.flatMap (·.tokens)) := notAt_convertors cs (by decide)
      rw [convertors_call name args hparen (List.forall_mem_cons.1 hfirst).2 rfl,
        convertors_tree_later cs rfl htail hv, Convertors.foldl_add cs hv]
      simp [Convertors.of]

-- ------------------------------------------------------------------
-- Fields
-- ------------------------------------------------------------------

theorem toWord?_of_mantissa {d : Decimal} {n : Nat} (hpos : 0 < n) (hn : n < 0x100000000)
    (h : d.mantissa = (n * Decimal.tenPow d.scale : Nat)) : d.toWord? = some n := by
  have hscale : 0 < Decimal.tenPow d.scale := Decimal.tenPow_pos d.scale
  have hprod : 0 < n * Decimal.tenPow d.scale := Nat.mul_pos hpos hscale
  have hsign : d.negative = false := by
    cases hneg : d.negative with
    | false => rfl
    | true =>
      rw [Decimal.mantissa, hneg, if_pos rfl] at h
      omega
  rw [Decimal.mantissa, hsign, if_neg (by decide), Int.ofNat_inj] at h
  have hword : n < 0x10000000000000000 := Nat.lt_trans hn (by decide)
  simp only [Decimal.toWord?, Decimal.wholeMagnitude?, h, Nat.mul_mod_left, if_true,
    Nat.mul_div_cancel _ hscale, hsign, hword, and_self]

theorem mantissa_of_toWord? {d : Decimal} {n : Nat} (h : d.toWord? = some n) :
    d.coefficient / Decimal.tenPow d.scale = n ∧
      d.mantissa = (n * Decimal.tenPow d.scale : Nat) := by
  simp only [Decimal.toWord?, Decimal.wholeMagnitude?] at h
  split at h
  · rename_i m hm
    obtain ⟨hmod, hm⟩ := Option.ite_none_right_eq_some.1 hm
    obtain ⟨hword, h⟩ := Option.ite_none_right_eq_some.1 h
    obtain rfl := Option.some.inj hm
    obtain rfl := Option.some.inj h
    refine ⟨rfl, ?_⟩
    rw [Decimal.mantissa, hword.1, if_neg (by decide),
      Nat.div_mul_cancel (Nat.dvd_of_mod_eq_zero hmod)]
  · simp at h

theorem positionOf_ok {n : Nat} (h : positionOf t = .ok n) :
    t.IsPositive ∧ t.whole < 0x100000000 ∧ t.whole = n := by
  unfold positionOf at h
  split at h
  · rename_i d hv
    split at h
    · rename_i m hm
      split at h
      · rename_i hrange
        obtain rfl := Except.ok.inj h
        obtain ⟨hwhole, hmantissa⟩ := mantissa_of_toWord? hm
        have ht : t.whole = m := by rw [Token.whole, hv, ← hwhole]
        exact ⟨⟨ht ▸ hrange.1, d, hv, ht ▸ hmantissa⟩, ht ▸ hrange.2, ht⟩
      · simp at h
    · simp at h
  · simp at h

theorem positionOf_token (h : t.IsPositive) (hword : t.whole < 0x100000000) :
    positionOf t = .ok t.whole := by
  obtain ⟨hpos, d, hv, hmantissa⟩ := h
  have hd := toWord?_of_mantissa hpos hword hmantissa
  rw [positionOf, hv]
  simp only [hd]
  rw [if_pos ⟨hpos, hword⟩]

theorem occursOf_ok {isAttribute : Bool} {occurs : Occurs}
    (h : occursOf field isAttribute t = .ok occurs) :
    t.bounds = occurs ∧ (∀ max ∈ occurs.max, occurs.min ≤ max ∧ 1 ≤ max) ∧
      (isAttribute → ¬ occurs.isArray) := by
  unfold occursOf at h
  split at h
  · rename_i hv
    split at h
    · simp at h
    · rename_i hsingle
      obtain rfl := Except.ok.inj h
      exact ⟨by rw [Token.bounds, hv], by simp, fun ha => absurd ha hsingle⟩
  · rename_i min max hv
    split at h
    · simp at h
    · rename_i hle
      split at h
      · simp at h
      · rename_i hmax
        split at h
        · simp at h
        · rename_i hsingle
          obtain rfl := Except.ok.inj h
          refine ⟨by rw [Token.bounds, hv], ?_, ?_⟩
          · rintro _ ⟨⟩
            exact ⟨Nat.not_lt.1 hle, Nat.pos_of_ne_zero hmax⟩
          · simpa [Occurs.isArray] using hsingle
  · simp at h

theorem occursOf_leaf {isAttribute : Bool} (field : String) (t : Leaf [.arraySize])
    (hc : t.val.kind.Carries t.val.value)
    (hbounds : ∀ max ∈ t.val.bounds.max, t.val.bounds.min ≤ max ∧ 1 ≤ max)
    (hsingle : isAttribute → ¬ t.val.bounds.isArray) :
    occursOf field isAttribute t.val = .ok t.val.bounds := by
  obtain ⟨min, max, hv, -⟩ := hc.bounds (List.mem_singleton.1 t.property)
  have ht : t.val.bounds = ⟨min, max⟩ := by rw [Token.bounds, hv]
  rw [ht] at hbounds hsingle ⊢
  cases max with
  | none =>
    have hplain : isAttribute = false := by simpa [Occurs.isArray] using hsingle
    simp [occursOf, hv, hplain]
  | some max =>
    obtain ⟨hle, hpos⟩ := hbounds max rfl
    have hone : ¬ (isAttribute = true ∧ 1 < max) := by simpa [Occurs.isArray] using hsingle
    simp only [occursOf, hv]
    rw [if_neg (Nat.not_lt.2 hle), if_neg (Nat.ne_of_gt hpos), if_neg hone]

theorem field_derived {d : FieldDecl} (hl : line.Regular) (h : Parser.field line = .ok d) :
    ∃ n : FieldTree, n.line = line ∧ n.Valid ∧ n.spell = d := by
  obtain ⟨ts, stop⟩ := line
  obtain ⟨⟨first, rest₁⟩, h₁, h⟩ := bind_eq_ok.1 h
  obtain ⟨position, hposition, h⟩ := bind_eq_ok.1 h
  obtain ⟨⟨filler, rest₂⟩, h₂, h⟩ := bind_eq_ok.1 h
  obtain ⟨⟨mark, rest₃⟩, h₃, h⟩ := bind_eq_ok.1 h
  obtain ⟨⟨space, rest₄⟩, h₄, h⟩ := bind_eq_ok.1 h
  obtain ⟨⟨t, rest₅⟩, h₅, h⟩ := bind_eq_ok.1 h
  obtain ⟨⟨size, rest₆⟩, h₆, h⟩ := bind_eq_ok.1 h
  obtain ⟨first, rfl, rfl⟩ := expect_derived h₁
  obtain ⟨filler, rfl, rfl⟩ := takeIf_derived h₂
  obtain ⟨mark, rfl, rfl⟩ := takeIf_derived h₃
  obtain ⟨space, rfl, rfl⟩ := takeIf_derived h₄
  obtain ⟨name, rfl, rfl⟩ := expect_derived h₅
  obtain ⟨size, rfl, rfl⟩ := takeIf_derived h₆
  obtain ⟨hpositive, hword, rfl⟩ := positionOf_ok hposition
  cases size with
  | none =>
    obtain ⟨occurs, hoccurs, h⟩ := bind_eq_ok.1 h
    obtain ⟨found, hfound, h⟩ := bind_eq_ok.1 h
    obtain rfl := Except.ok.inj hoccurs
    obtain rfl := Except.ok.inj h
    obtain ⟨cs, ⟨e, rfl⟩, rfl, hhead, hencoding, rfl⟩ := convertors_derived hfound
    obtain ⟨eol, rfl⟩ := regular_eol hl rfl
    refine ⟨⟨first, filler, mark, space, name, none, cs, eol⟩, rfl, ?_, ?_⟩
    · exact ⟨⟨hpositive, hword⟩, by simp [FieldTree.occurs, Occurs.once],
        by simp [FieldTree.occurs, Occurs.once, Occurs.isArray], hhead, hencoding⟩
    · cases space <;> cases mark <;> cases filler <;> rfl
  | some size =>
    obtain ⟨occurs, hoccurs, h⟩ := bind_eq_ok.1 h
    obtain ⟨found, hfound, h⟩ := bind_eq_ok.1 h
    obtain ⟨rfl, hbounds, hsingle⟩ := occursOf_ok hoccurs
    rw [Option.isSome_map] at hsingle
    obtain rfl := Except.ok.inj h
    obtain ⟨cs, ⟨e, rfl⟩, rfl, hhead, hencoding, rfl⟩ := convertors_derived hfound
    obtain ⟨eol, rfl⟩ := regular_eol hl rfl
    refine ⟨⟨first, filler, mark, space, name, some size, cs, eol⟩, rfl, ?_, ?_⟩
    · exact ⟨⟨hpositive, hword⟩, hbounds, hsingle, hhead, hencoding⟩
    · cases space <;> cases mark <;> cases filler <;> rfl

theorem field_tree (n : FieldTree) (hl : n.line.Regular) (hv : n.Valid) :
    Parser.field n.line = .ok n.spell := by
  obtain ⟨position, filler, mark, space, name, size, cs, eol⟩ := n
  obtain ⟨⟨hpositive, hword⟩, hbounds, hsingle, hhead, hencoding⟩ := hv
  have hc := hl.carries
  simp only [FieldTree.line, List.forall_mem_cons, List.forall_mem_append] at hc
  obtain ⟨-, -, -, -, -, hsize, hconvertors⟩ := hc
  refine bind_eq_ok.2 ⟨_, expect_leaf _ position _, ?_⟩
  refine bind_eq_ok.2 ⟨_, positionOf_token hpositive hword, ?_⟩
  -- A mark that is left out is not seen in what follows it.
  refine bind_eq_ok.2 ⟨_, takeIf_leaf filler fun _ => ?_, ?_⟩
  · exact notAt_optional mark (by decide) (notAt_optional space (by decide)
      (notAt_leaf name _ (by decide)))
  refine bind_eq_ok.2 ⟨_, takeIf_leaf mark fun _ => ?_, ?_⟩
  · exact notAt_optional space (by decide) (notAt_leaf name _ (by decide))
  refine bind_eq_ok.2 ⟨_, takeIf_leaf space fun _ => notAt_leaf name _ (by decide), ?_⟩
  refine bind_eq_ok.2 ⟨_, expect_leaf _ name _, ?_⟩
  refine bind_eq_ok.2 ⟨_, takeIf_leaf size fun _ => notAt_convertors cs (by decide), ?_⟩
  have hfound := fun field => convertors_tree (e := eol.val) field cs hconvertors hhead hencoding
  cases size with
  | none =>
    refine bind_eq_ok.2 ⟨_, rfl, bind_eq_ok.2 ⟨_, hfound _, ?_⟩⟩
    cases space <;> cases mark <;> cases filler <;> rfl
  | some size =>
    have hmark : (mark.map (·.val)).isSome = mark.isSome := Option.isSome_map
    have hoccurs : ∀ field, occursOf field (mark.map (·.val)).isSome size.val = .ok size.val.bounds :=
      fun field => occursOf_leaf field size (hsize size.val List.mem_cons_self) hbounds
        (hmark ▸ hsingle)
    refine bind_eq_ok.2 ⟨_, hoccurs _, bind_eq_ok.2 ⟨_, hfound _, ?_⟩⟩
    cases space <;> cases mark <;> cases filler <;> rfl

end Parser

/-- Every field of a layout that is read from a text is what a valid tree spells. -/
theorem parse_fieldTrees {text : String} {source : Option String} {layout : Layout}
    (h : parse text source = .ok layout) :
    ∀ r ∈ layout.recordTypes ++ layout.classifier.toList, ∀ d ∈ r.fields,
      ∃ n : FieldTree, n.line.Regular ∧ n.Valid ∧ n.spell = d := by
  refine parse_fields (fun line hline d hfield => ?_) h
  have hregular := ofSource_regular text line hline
  obtain ⟨n, rfl, hvalid, hspell⟩ := Parser.field_derived hregular hfield
  exact ⟨n, hregular, hvalid, hspell⟩

end Flatfile.Layout
