import Flatfile.Error.Syntax

/-!
# The words of a line

A scanner looks for one kind of word at the start of some characters and hands back what follows
it. Names, numbers and bracketed words are ASCII; any character may stand in a quoted text. The
scanners are tried in a fixed order and the first that finds its word wins, so that `[x]` is a
record header before it could be an array size, and `true` a truth value before it is a name.

The words are those of a pest grammar, and the scanners do what pest documents of one: the first
alternative that matches is taken for good, repetitions take as much as they can and give nothing
back, `!` and `&` look ahead without taking anything, and nothing is skipped within a word.
-/

namespace Flatfile.Layout

/-- A word: its kind, and its value or the reason why its text has none. -/
structure Word where
  kind : TokenKind
  value : Except SyntaxCause TokenValue

abbrev Scanner := List Char → Option (Word × List Char)

def startsName (c : Char) : Bool :=
  c.isAlpha || c == '_'

def continuesName (c : Char) : Bool :=
  c.isAlphanum || c == '_' || c == '-' || c == '.'

def isHexDigit (c : Char) : Bool :=
  c.isDigit || ('a' ≤ c && c ≤ 'f') || ('A' ≤ c && c ≤ 'F')

def endsBefore (p : Char → Bool) : List Char → Bool
  | [] => true
  | c :: _ => !p c

def skipBlanks (cs : List Char) : List Char :=
  cs.dropWhile fun c => c == ' ' || c == '\t'

def before (cs rest : List Char) : List Char :=
  cs.take (cs.length - rest.length)

def run (p : Char → Bool) (cs : List Char) : Option (List Char × List Char) :=
  if endsBefore p cs then none else some (cs.takeWhile p, cs.dropWhile p)

def name : List Char → Option (List Char × List Char)
  | [] => none
  | c :: rest =>
    if startsName c then some (c :: rest.takeWhile continuesName, rest.dropWhile continuesName)
    else none

def bracketed (inner : List Char → Option (α × List Char)) : List Char → Option (α × List Char)
  | '[' :: rest =>
    match inner (skipBlanks rest) with
    | some (a, rest) =>
      match skipBlanks rest with
      | ']' :: rest => some (a, rest)
      | _ => none
    | none => none
  | _ => none

def upperBound : List Char → Option (Option (List Char) × List Char)
  | '.' :: '.' :: rest =>
    match skipBlanks rest with
    | '*' :: rest => some (none, rest)
    | rest => (run Char.isDigit rest).map fun (digits, rest) => (some digits, rest)
  | _ => none

def bounds (cs : List Char) : Option ((List Char × Option (List Char)) × List Char) :=
  match run Char.isDigit cs with
  | some (low, rest) =>
    match upperBound (skipBlanks rest) with
    | some (high, rest) => some ((low, high), rest)
    | none => some ((low, some low), rest)
  | none => none

def digitsValue (digits : List Char) : Nat :=
  digits.foldl (fun n c => 10 * n + (c.toNat - 0x30)) 0

def boundValue (digits : List Char) : Except SyntaxCause Nat :=
  if digitsValue digits < 0x100000000 then .ok (digitsValue digits) else .error .boundTooLarge

def boundsValue (low : List Char) (high : Option (List Char)) : Except SyntaxCause TokenValue := do
  let min ← boundValue low
  match high with
  | none => .ok (.bounds min none)
  | some digits =>
    let max ← boundValue digits
    .ok (.bounds min (some max))

inductive Quoted where
  | plain (c : Char)
  | escape (c : Char)

/-- The inside of a quoted text, up to the closing quote, which is dropped. A backslash takes the
next character with it. -/
def quotedBody (quote : Char) : List Char → Option (List Quoted × List Char)
  | [] => none
  | c :: rest =>
    if c = quote then some ([], rest)
    else if c = '\\' then
      match rest with
      | [] => none
      | e :: rest => (quotedBody quote rest).map fun (body, rest) => (.escape e :: body, rest)
    else (quotedBody quote rest).map fun (body, rest) => (.plain c :: body, rest)

def escapeValue (c : Char) : Except SyntaxCause Char :=
  match c with
  | 'n' => .ok '\n'
  | 't' => .ok '\t'
  | 'b' => .ok '\x08'
  | 'r' => .ok '\r'
  | 'f' => .ok '\x0c'
  | '\\' => .ok '\\'
  | '\x27' => .ok '\x27'
  | '\x22' => .ok '\x22'
  | c => .error (.badEscape c)

def Quoted.value : Quoted → Except SyntaxCause Char
  | plain c => .ok c
  | escape c => escapeValue c

-- ------------------------------------------------------------------
-- One scanner a kind
-- ------------------------------------------------------------------

def recordHeaderWord : Scanner := fun cs =>
  (bracketed name cs).map fun (n, rest) =>
    (⟨.recordHeader, .ok (.name (String.ofList n))⟩, rest)

def arraySizeWord : Scanner := fun cs =>
  (bracketed bounds cs).map fun ((low, high), rest) => (⟨.arraySize, boundsValue low high⟩, rest)

def headerWord : Scanner := fun cs =>
  match name cs with
  | some (n, ':' :: rest) => some (⟨.header, .ok (.name (String.ofList n))⟩, rest)
  | _ => none

/-- Hexadecimal digits after `0x`; an odd number of them has a zero put in front. -/
def hexValue (digits : List Char) : Except SyntaxCause TokenValue :=
  let padded := if digits.length % 2 = 1 then '0' :: digits else digits
  match Text.Hex.decode (String.ofList padded) with
  | .ok bytes => .ok (.literal (.hex bytes))
  | .error fault => .error (.other ("invalid hex literal: " ++ fault.message))

def hexWord : Scanner := fun cs =>
  match cs with
  | '0' :: x :: rest =>
    if x = 'x' ∨ x = 'X' then
      match run isHexDigit rest with
      | some (digits, rest) =>
        if endsBefore continuesName rest then some (⟨.hex, hexValue digits⟩, rest) else none
      | none => none
    else none
  | _ => none

def afterNumber (cs : List Char) : Option (List Char) :=
  match run Char.isDigit cs with
  | none => none
  | some (_, '.' :: rest) =>
    match run Char.isDigit rest with
    | some (_, rest) => some rest
    | none => some ('.' :: rest)
  | some (_, rest) => some rest

def skipSign : List Char → List Char
  | '-' :: rest => rest
  | '+' :: rest => rest
  | cs => cs

def numberValue (raw : List Char) : Except SyntaxCause TokenValue :=
  match Decimal.readChars raw with
  | .ok d => .ok (.literal (.number d))
  | .error fault => .error (.badNumber fault)

def numberWord : Scanner := fun cs =>
  match afterNumber (skipSign cs) with
  | some rest =>
    if endsBefore startsName rest then some (⟨.number, numberValue (before cs rest)⟩, rest)
    else none
  | none => none

def keyword (word : List Char) (kind : TokenKind) (value : TokenValue) : Scanner := fun cs =>
  if word.isPrefixOf cs ∧ endsBefore continuesName (cs.drop word.length) then
    some (⟨kind, .ok value⟩, cs.drop word.length)
  else none

def stringWord : Scanner := fun cs =>
  match cs with
  | quote :: rest =>
    if quote = '\x22' ∨ quote = '\x27' then
      (quotedBody quote rest).map fun (body, rest) =>
        let value := (body.mapM Quoted.value).map fun text =>
          .literal (.string (String.ofList text))
        (⟨.string, value⟩, rest)
    else none
  | [] => none

def identifierWord : Scanner := fun cs =>
  (name cs).map fun (n, rest) => (⟨.identifier, .ok (.name (String.ofList n))⟩, rest)

def mark? : Char → Option TokenKind
  | '(' => some .leftParen
  | ')' => some .rightParen
  | ',' => some .comma
  | '=' => some .equals
  | '<' => some .less
  | '?' => some .question
  | '@' => some .atSign
  | _ => none

def markWord : Scanner := fun cs =>
  match cs with
  | c :: rest => (mark? c).map fun kind => (⟨kind, .ok .none⟩, rest)
  | [] => none

def scanners : List Scanner := [
  recordHeaderWord, arraySizeWord, headerWord, hexWord, numberWord,
  keyword ['t', 'r', 'u', 'e'] .boolean (.literal (.bool true)),
  keyword ['f', 'a', 'l', 's', 'e'] .boolean (.literal (.bool false)),
  stringWord, identifierWord, markWord]

def word : Scanner := fun cs =>
  scanners.findSome? (· cs)

-- ------------------------------------------------------------------
-- A word takes at least one character
-- ------------------------------------------------------------------

def Follows (cs rest : List Char) : Prop :=
  rest <:+ cs ∧ rest.length < cs.length

theorem Follows.trans_suffix {cs mid rest : List Char} (h : Follows cs mid) (hs : rest <:+ mid) :
    Follows cs rest :=
  ⟨hs.trans h.1, Nat.lt_of_le_of_lt hs.length_le h.2⟩

theorem Follows.of_suffix {cs mid rest : List Char} (hs : mid <:+ cs) (h : Follows mid rest) :
    Follows cs rest :=
  ⟨h.1.trans hs, Nat.lt_of_lt_of_le h.2 hs.length_le⟩

theorem follows_cons (c : Char) (rest : List Char) : Follows (c :: rest) rest :=
  ⟨List.suffix_cons c rest, by simp⟩

theorem skipBlanks_suffix (cs : List Char) : skipBlanks cs <:+ cs :=
  List.dropWhile_suffix _

theorem run_follows {p : Char → Bool} {cs taken rest : List Char}
    (h : run p cs = some (taken, rest)) : Follows cs rest := by
  cases cs with
  | nil => simp [run, endsBefore] at h
  | cons c cs =>
    by_cases hp : p c
    · simp only [run, endsBefore, hp, Bool.not_true, Bool.false_eq_true, if_false,
        Option.some.injEq, Prod.mk.injEq] at h
      rw [← h.2, List.dropWhile_cons_of_pos hp]
      exact (follows_cons c cs).trans_suffix (List.dropWhile_suffix _)
    · simp [run, endsBefore, hp] at h

theorem name_follows {cs n rest : List Char} (h : name cs = some (n, rest)) : Follows cs rest := by
  cases cs with
  | nil => simp [name] at h
  | cons c cs =>
    simp only [name] at h
    split at h
    · simp only [Option.some.injEq, Prod.mk.injEq] at h
      exact h.2 ▸ (follows_cons c cs).trans_suffix (List.dropWhile_suffix _)
    · simp at h

theorem bracketed_follows {inner : List Char → Option (α × List Char)}
    (hi : ∀ {cs a rest}, inner cs = some (a, rest) → Follows cs rest)
    {cs : List Char} {a : α} {rest : List Char} (h : bracketed inner cs = some (a, rest)) :
    Follows cs rest := by
  unfold bracketed at h
  split at h
  · rename_i tail
    split at h
    · rename_i b mid hb
      split at h
      · rename_i last hl
        simp only [Option.some.injEq, Prod.mk.injEq] at h
        have hinner := (hi hb).of_suffix (skipBlanks_suffix tail)
        have hclose : last <:+ mid := (List.suffix_cons ']' last).trans (hl ▸ skipBlanks_suffix mid)
        exact h.2 ▸ ((follows_cons '[' tail).trans_suffix (hclose.trans hinner.1))
      · simp at h
    · simp at h
  · simp at h

theorem upperBound_follows {cs : List Char} {high : Option (List Char)} {rest : List Char}
    (h : upperBound cs = some (high, rest)) : Follows cs rest := by
  unfold upperBound at h
  split at h
  · rename_i tail
    have htail : Follows ('.' :: '.' :: tail) tail :=
      (follows_cons '.' _).trans_suffix (List.suffix_cons '.' tail)
    split at h
    · rename_i last hl
      simp only [Option.some.injEq, Prod.mk.injEq] at h
      have hlast : last <:+ tail := (List.suffix_cons '*' last).trans (hl ▸ skipBlanks_suffix tail)
      exact h.2 ▸ htail.trans_suffix hlast
    · simp only [Option.map_eq_some_iff] at h
      obtain ⟨⟨digits, last⟩, hr, he⟩ := h
      simp only [Prod.mk.injEq] at he
      have hlast := (run_follows hr).of_suffix (skipBlanks_suffix tail)
      exact he.2 ▸ htail.trans_suffix hlast.1
  · simp at h

theorem bounds_follows {cs : List Char} {b : List Char × Option (List Char)} {rest : List Char}
    (h : bounds cs = some (b, rest)) : Follows cs rest := by
  unfold bounds at h
  split at h
  · rename_i low mid hl
    have hmid := run_follows hl
    split at h
    · rename_i high last hh
      simp only [Option.some.injEq, Prod.mk.injEq] at h
      exact h.2 ▸ hmid.trans_suffix ((upperBound_follows hh).1.trans (skipBlanks_suffix mid))
    · simp only [Option.some.injEq, Prod.mk.injEq] at h
      exact h.2 ▸ hmid
  · simp at h

theorem quotedBody_suffix {quote : Char} {cs : List Char} {body : List Quoted} {rest : List Char}
    (h : quotedBody quote cs = some (body, rest)) : rest <:+ cs := by
  fun_induction quotedBody quote cs generalizing body rest with
  | case1 => simp at h
  | case2 tail =>
    simp only [Option.some.injEq, Prod.mk.injEq] at h
    exact h.2 ▸ List.suffix_cons _ _
  | case3 => simp at h
  | case4 _ e tail ih =>
    obtain ⟨⟨b, last⟩, hb, he⟩ := Option.map_eq_some_iff.1 h
    simp only [Prod.mk.injEq] at he
    exact he.2 ▸ ((ih hb).trans (List.suffix_cons _ _)).trans (List.suffix_cons _ _)
  | case5 c tail _ _ ih =>
    obtain ⟨⟨b, last⟩, hb, he⟩ := Option.map_eq_some_iff.1 h
    simp only [Prod.mk.injEq] at he
    exact he.2 ▸ (ih hb).trans (List.suffix_cons _ _)

theorem afterNumber_follows {cs rest : List Char} (h : afterNumber cs = some rest) :
    Follows cs rest := by
  unfold afterNumber at h
  split at h
  · simp at h
  · rename_i whole tail hw
    have htail := run_follows hw
    split at h
    · rename_i fraction last hf
      simp only [Option.some.injEq] at h
      exact h ▸ htail.trans_suffix ((run_follows hf).1.trans (List.suffix_cons _ _))
    · simp only [Option.some.injEq] at h
      exact h ▸ htail
  · rename_i whole tail _ hw
    simp only [Option.some.injEq] at h
    exact h ▸ run_follows hw

theorem skipSign_suffix (cs : List Char) : skipSign cs <:+ cs := by
  unfold skipSign
  split
  · exact List.suffix_cons _ _
  · exact List.suffix_cons _ _
  · exact List.suffix_refl _

theorem keyword_follows {w : List Char} {kind : TokenKind} {value : TokenValue} (hw : w ≠ [])
    {cs : List Char} {found : Word} {rest : List Char}
    (h : keyword w kind value cs = some (found, rest)) : Follows cs rest := by
  unfold keyword at h
  split at h
  · rename_i hp
    simp only [Option.some.injEq, Prod.mk.injEq] at h
    have hle := (List.isPrefixOf_iff_prefix.1 hp.1).length_le
    have hpos := List.length_pos_iff.2 hw
    refine h.2 ▸ ⟨List.drop_suffix _ _, ?_⟩
    rw [List.length_drop]
    omega
  · simp at h

/-- Every scanner takes at least one character and leaves the others alone. -/
theorem scanner_follows {scanner : Scanner} (hm : scanner ∈ scanners) {cs : List Char}
    {found : Word} {rest : List Char} (h : scanner cs = some (found, rest)) : Follows cs rest := by
  simp only [scanners, List.mem_cons, List.not_mem_nil, or_false] at hm
  rcases hm with rfl | rfl | rfl | rfl | rfl | rfl | rfl | rfl | rfl | rfl
  · obtain ⟨⟨n, last⟩, hb, he⟩ := Option.map_eq_some_iff.1 h
    simp only [Prod.mk.injEq] at he
    exact he.2 ▸ bracketed_follows name_follows hb
  · obtain ⟨⟨⟨low, high⟩, last⟩, hb, he⟩ := Option.map_eq_some_iff.1 h
    simp only [Prod.mk.injEq] at he
    exact he.2 ▸ bracketed_follows bounds_follows hb
  · simp only [headerWord] at h
    split at h
    · rename_i n last hn
      simp only [Option.some.injEq, Prod.mk.injEq] at h
      exact h.2 ▸ (name_follows hn).trans_suffix (List.suffix_cons _ _)
    · simp at h
  · simp only [hexWord] at h
    split at h
    · rename_i x tail
      split at h
      · split at h
        · rename_i digits last hr
          split at h
          · simp only [Option.some.injEq, Prod.mk.injEq] at h
            refine h.2 ▸ (follows_cons '0' _).trans_suffix ?_
            exact (run_follows hr).1.trans (List.suffix_cons _ _)
          · simp at h
        · simp at h
      · simp at h
    · simp at h
  · simp only [numberWord] at h
    split at h
    · rename_i last hl
      split at h
      · simp only [Option.some.injEq, Prod.mk.injEq] at h
        exact h.2 ▸ (afterNumber_follows hl).of_suffix (skipSign_suffix cs)
      · simp at h
    · simp at h
  · exact keyword_follows (by simp) h
  · exact keyword_follows (by simp) h
  · simp only [stringWord] at h
    split at h
    · rename_i quote tail
      split at h
      · obtain ⟨⟨body, last⟩, hb, he⟩ := Option.map_eq_some_iff.1 h
        simp only [Prod.mk.injEq] at he
        exact he.2 ▸ (follows_cons quote tail).trans_suffix (quotedBody_suffix hb)
      · simp at h
    · simp at h
  · obtain ⟨⟨n, last⟩, hn, he⟩ := Option.map_eq_some_iff.1 h
    simp only [Prod.mk.injEq] at he
    exact he.2 ▸ name_follows hn
  · simp only [markWord] at h
    split at h
    · rename_i c tail
      obtain ⟨kind, hk, he⟩ := Option.map_eq_some_iff.1 h
      simp only [Prod.mk.injEq] at he
      exact he.2 ▸ follows_cons c tail
    · simp at h

theorem word_follows {cs : List Char} {found : Word} {rest : List Char}
    (h : word cs = some (found, rest)) : Follows cs rest := by
  obtain ⟨_, scanner, _, hl, hs, _⟩ := List.findSome?_eq_some_iff.1 h
  exact scanner_follows (by simp [hl]) hs

end Flatfile.Layout
