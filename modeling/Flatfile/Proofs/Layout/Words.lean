import Flatfile.Layout.Line
import Flatfile.Outcome
import Mathlib.Algebra.Ring.Nat

/-!
# What words carry

`Word.Scanned` lists the words that the scanners find, so that no other proof looks into a scanner.
The kind of a word says what its value is: a literal carries a literal, an array size bounds, a name
a name. No word is the end of a line, and nothing else closes one (`ofSource_regular`).
-/

namespace Flatfile.Layout

/-- A word of this kind can carry this value. -/
def TokenKind.Carries : TokenKind → TokenValue → Prop
  | string, value | number, value | boolean, value | hex, value => ∃ l, value = .literal l
  | arraySize, value => ∃ min max, value = .bounds min max ∧ max.getD min < 2 ^ 32
  | header, value | recordHeader, value | identifier, value => ∃ n, value = .name n
  | endOfLine, _ | endOfInput, _ => False
  | _, value => value = .none

namespace TokenKind.Carries

variable {kind : TokenKind} {value : TokenValue}

theorem literal (h : kind.Carries value) (hk : kind ∈ literals) : ∃ l, value = .literal l := by
  cases kind with
  | string | number | boolean | hex => exact h
  | _ => exact absurd hk (by decide)

theorem name (h : kind.Carries value) (hk : kind = .identifier) : ∃ n, value = .name n := by
  subst hk
  exact h

theorem bounds (h : kind.Carries value) (hk : kind = .arraySize) :
    ∃ min max, value = .bounds min max ∧ max.getD min < 2 ^ 32 := by
  subst hk
  exact h

end TokenKind.Carries

variable {kind : TokenKind} {found : Word} {value : TokenValue} {cs rest : List Char}

-- ------------------------------------------------------------------
-- What scanners find
-- ------------------------------------------------------------------

def TokenKind.names : List TokenKind :=
  [header, recordHeader, identifier]

inductive Word.Scanned : Word → Prop
  | name {kind cs n rest} : kind ∈ TokenKind.names → Layout.name cs = some (n, rest) →
      Scanned ⟨kind, .ok (.name (String.ofList n))⟩
  | arraySize (low high) : Scanned ⟨.arraySize, boundsValue low high⟩
  | hex (digits) : Scanned ⟨.hex, hexValue digits⟩
  | number (raw) : Scanned ⟨.number, numberValue raw⟩
  | boolean (b) : Scanned ⟨.boolean, .ok (.literal (.bool b))⟩
  | string (body : List Quoted) : Scanned ⟨.string,
      (body.mapM Quoted.value).map fun text => .literal (.string (String.ofList text))⟩
  | mark {c kind} : mark? c = some kind → Scanned ⟨kind, .ok .none⟩

theorem bracketed_inner {inner : List Char → Option (α × List Char)} {a : α}
    (h : bracketed inner cs = some (a, rest)) :
    ∃ cs' rest', inner cs' = some (a, rest') := by
  unfold bracketed at h
  split at h
  · split at h
    · rename_i hinner
      split at h
      · simp only [Option.some.injEq, Prod.mk.injEq] at h
        exact ⟨_, _, h.1 ▸ hinner⟩
      · simp at h
    · simp at h
  · simp at h

theorem keyword_scanned {w : List Char} {b : Bool}
    (h : keyword w .boolean (.literal (.bool b)) cs = some (found, rest)) : found.Scanned := by
  simp only [keyword] at h
  split at h
  · obtain ⟨rfl, -⟩ := Prod.mk.inj (Option.some.inj h)
    exact .boolean b
  · simp at h

theorem scanner_scanned {scanner : Scanner} (hm : scanner ∈ scanners)
    (h : scanner cs = some (found, rest)) : found.Scanned := by
  simp only [scanners, List.mem_cons, List.not_mem_nil, or_false] at hm
  rcases hm with rfl | rfl | rfl | rfl | rfl | rfl | rfl | rfl | rfl | rfl
  · obtain ⟨_, hb, he⟩ := Option.map_eq_some_iff.1 h
    obtain ⟨rfl, -⟩ := Prod.mk.inj he
    obtain ⟨_, _, hn⟩ := bracketed_inner hb
    exact .name (by decide) hn
  · obtain ⟨_, _, he⟩ := Option.map_eq_some_iff.1 h
    obtain ⟨rfl, -⟩ := Prod.mk.inj he
    exact .arraySize _ _
  · simp only [headerWord] at h
    split at h
    · rename_i hn
      obtain ⟨rfl, -⟩ := Prod.mk.inj (Option.some.inj h)
      exact .name (by decide) hn
    · simp at h
  · simp only [hexWord] at h
    repeat' split at h
    all_goals try simp at h
    obtain ⟨rfl, -⟩ := h
    exact .hex _
  · simp only [numberWord] at h
    repeat' split at h
    all_goals try simp at h
    obtain ⟨rfl, -⟩ := h
    exact .number _
  · exact keyword_scanned h
  · exact keyword_scanned h
  · simp only [stringWord] at h
    repeat' split at h
    · obtain ⟨_, _, he⟩ := Option.map_eq_some_iff.1 h
      obtain ⟨rfl, -⟩ := Prod.mk.inj he
      exact .string _
    all_goals simp at h
  · obtain ⟨_, hn, he⟩ := Option.map_eq_some_iff.1 h
    obtain ⟨rfl, -⟩ := Prod.mk.inj he
    exact .name (by decide) hn
  · simp only [markWord] at h
    split at h
    · obtain ⟨kind, hk, he⟩ := Option.map_eq_some_iff.1 h
      obtain ⟨rfl, -⟩ := Prod.mk.inj he
      exact .mark hk
    · simp at h

theorem word_scanned (h : word cs = some (found, rest)) : found.Scanned := by
  obtain ⟨_, scanner, _, hl, hs, _⟩ := List.findSome?_eq_some_iff.1 h
  exact scanner_scanned (by simp [hl]) hs

-- ------------------------------------------------------------------
-- The values of words
-- ------------------------------------------------------------------

theorem boundValue_lt {digits : List Char} {n : Nat} (h : boundValue digits = .ok n) :
    n < 2 ^ 32 := by
  unfold boundValue at h
  split at h
  next hlt => exact Except.ok.inj h ▸ hlt
  next => cases h

theorem boundsValue_ok {low : List Char} {high : Option (List Char)}
    (h : boundsValue low high = .ok value) :
    ∃ min max, value = .bounds min max ∧ max.getD min < 2 ^ 32 := by
  obtain ⟨min, hmin, h⟩ := bind_eq_ok.1 h
  cases high with
  | none => exact ⟨min, none, (Except.ok.inj h).symm, boundValue_lt hmin⟩
  | some digits =>
    obtain ⟨max, hmax, h⟩ := bind_eq_ok.1 h
    exact ⟨min, some max, (Except.ok.inj h).symm, boundValue_lt hmax⟩

theorem hexValue_ok {digits : List Char} (h : hexValue digits = .ok value) :
    ∃ l, value = .literal l := by
  simp only [hexValue] at h
  split at h
  · exact ⟨_, (Except.ok.inj h).symm⟩
  · simp at h

theorem numberValue_ok {raw : List Char} (h : numberValue raw = .ok value) :
    ∃ l, value = .literal l := by
  simp only [numberValue] at h
  split at h
  · exact ⟨_, (Except.ok.inj h).symm⟩
  · simp at h

theorem TokenKind.carries_name {n : String} (h : kind ∈ names) : kind.Carries (.name n) := by
  cases kind with
  | header | recordHeader | identifier => exact ⟨n, rfl⟩
  | _ => exact absurd h (by decide)

theorem mark?_carries {c : Char} (h : mark? c = some kind) :
    kind ∉ TokenKind.names ∧ kind.Carries .none := by
  unfold mark? at h
  split at h
  case h_8 => simp at h
  all_goals
    obtain rfl := Option.some.inj h
    exact ⟨by decide, rfl⟩

theorem Word.Scanned.carries (h : found.Scanned) (hv : found.value = .ok value) :
    found.kind.Carries value := by
  cases h with
  | name hk => exact Except.ok.inj hv ▸ TokenKind.carries_name hk
  | arraySize => exact boundsValue_ok hv
  | hex => exact hexValue_ok hv
  | number => exact numberValue_ok hv
  | boolean => exact ⟨_, (Except.ok.inj hv).symm⟩
  | string =>
    obtain ⟨_, -, he⟩ := map_eq_ok.1 hv
    exact ⟨_, he.symm⟩
  | mark hm => exact Except.ok.inj hv ▸ (mark?_carries hm).2

-- ------------------------------------------------------------------
-- Lines
-- ------------------------------------------------------------------

/-- A line of words with what their kinds say, and the end of a line behind them. -/
structure Line.Regular (line : Line) : Prop where
  carries : ∀ t ∈ line.tokens, t.kind.Carries t.value
  stop : ∀ t, line.stop = .ok t → t.kind = .endOfLine

theorem tokensFrom_regular (line column : Nat) (cs : List Char) :
    (tokensFrom line column cs).Regular := by
  fun_induction tokensFrom line column cs with
  | case1 =>
    refine ⟨by simp, ?_⟩
    rintro t h
    exact Except.ok.inj h ▸ rfl
  | case2 | case3 => exact ⟨by simp, by simp⟩
  | case4 column cs rest column' hne found after hword raw value hvalue more ih =>
    refine ⟨?_, ih.stop⟩
    intro t ht
    rcases List.mem_cons.1 ht with rfl | ht
    · exact (word_scanned hword).carries hvalue
    · exact ih.carries t ht

theorem ofSource_all {P : Line → Prop} (h : ∀ n cs, P (tokensFrom n 1 cs)) (source : String) :
    ∀ line ∈ (Lines.ofSource source).lines, P line := by
  intro line hline
  simp only [Lines.ofSource, List.mem_filterMap] at hline
  obtain ⟨⟨cs, n⟩, -, hline⟩ := hline
  split at hline
  · simp at hline
  · obtain rfl := Option.some.inj hline
    exact h n cs

theorem ofSource_regular (source : String) :
    ∀ line ∈ (Lines.ofSource source).lines, line.Regular :=
  ofSource_all (fun n cs => tokensFrom_regular n 1 cs) source

end Flatfile.Layout
