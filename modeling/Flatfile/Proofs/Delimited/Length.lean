import Flatfile.Proofs.Delimited.Limit

/-!
# The length of a record against the limit

A record is read under a limit exactly if the limit is no less than its length, but for the quotes
at its end: a quoted column is closed without a look at the limit, and so is one opened that holds
nothing (`scanRecord_exactLimit`). A record whose last column is quoted is therefore read when it is
one character too long, or two.
-/

namespace Flatfile.Delimited

variable {α : Type} {d : Delimiters} {s s' : TextStream} {quote : Char} {cs : List Char}
  {column count n : Nat} {low least : Nat} {scan next : Nat → Except RawError α × TextStream}
  {outcome : Except RawError α × TextStream}

/-- Of the limits from `low` on, those from `least` on let the scan come to the outcome, and under
the others the record is refused as too long. -/
def ExactFrom (low least : Nat) (scan : Nat → Except RawError α × TextStream)
    (outcome : Except RawError α × TextStream) : Prop :=
  ∀ m, low ≤ m → (least ≤ m → scan m = outcome) ∧
    (m < least → ∃ s', scan m = (.error (.data (.oversize m)), s'))

theorem ExactFrom.of_iff {low' least' : Nat} (h : ExactFrom low least scan outcome)
    (hle : ∀ m, low' ≤ m → low ≤ m ∧ (least ≤ m ↔ least' ≤ m)) :
    ExactFrom low' least' scan outcome := by
  intro m hm
  obtain ⟨hlow, hiff⟩ := hle m hm
  obtain ⟨hread, hlong⟩ := h m hlow
  exact ⟨fun hl => hread (hiff.2 hl), fun hl => hlong (by omega)⟩

theorem ExactFrom.congr (h : ExactFrom low least next outcome) (heq : ∀ m, scan m = next m) :
    ExactFrom low least scan outcome :=
  funext heq ▸ h

theorem exactFrom_always (h : ∀ m, scan m = outcome) : ExactFrom least least scan outcome :=
  fun m hm => ⟨fun _ => h m, fun hlt => absurd hm (Nat.not_le.2 hlt)⟩

/-- A step that looks at the limit once `base` characters are counted. -/
theorem ExactFrom.counted {base : Nat} (h : ExactFrom base least next outcome)
    (hle : base ≤ least) (hgo : ∀ m, base ≤ m → scan m = next m)
    (hlong : ∀ m, low ≤ m → m < base → ∃ s', scan m = (.error (.data (.oversize m)), s')) :
    ExactFrom low least scan outcome := by
  intro m hlow
  by_cases hm : base ≤ m
  · rw [hgo m hm]
    exact h m hm
  · exact ⟨fun hl => absurd (Nat.le_trans hle hl) hm, fun _ => hlong m hlow (Nat.not_le.1 hm)⟩

theorem ExactFrom.map {β : Type} (f : α → β) (h : ExactFrom low least scan outcome) :
    ExactFrom low least (fun m => ((scan m).1.map f, (scan m).2))
      (outcome.1.map f, outcome.2) := by
  intro m hm
  obtain ⟨hread, hlong⟩ := h m hm
  refine ⟨fun hl => by simp only [hread hl], fun hl => ?_⟩
  obtain ⟨s', heq⟩ := hlong hl
  exact ⟨s', by simp only [heq]; rfl⟩

theorem exists_tooLong (α : Type) (d : Delimiters) (m : Nat) (hs : s.Holds cs) :
    ∃ s', (tooLong (d.limitedTo m) s : Except RawError α × TextStream) =
      (.error (.data (.oversize m)), s') := by
  obtain ⟨s', h, -⟩ := tooLong_eq α (d.limitedTo m) hs
  exact ⟨s', h⟩

-- ------------------------------------------------------------------
-- Columns
-- ------------------------------------------------------------------

/-- The limit is compared with all of a quoted column but the quote that closes it. -/
theorem quotedBody_exactFrom {taken body : List Char} (hs : s.Holds cs)
    (h : quotedBody d quote s taken count = (.ok (body, n), s')) :
    count < n ∧ ExactFrom 0 (if n = count + 1 then 0 else n - 1)
      (fun m => quotedBody (d.limitedTo m) quote s taken count) (.ok (body, n), s') := by
  fun_induction quotedBody d quote s taken count generalizing cs with
  | case1 | case2 | case3 => simp at h
  | case4 s taken count s₁ s₂ h₂ h₁ =>
    rw [← h]
    obtain ⟨hfound, -⟩ := Prod.mk.inj h
    obtain ⟨-, rfl⟩ := Prod.mk.inj (Except.ok.inj hfound)
    rw [if_pos rfl]
    exact ⟨Nat.lt_succ_self _, exactFrom_always fun m => quotedBody_close_end h₁ h₂⟩
  | case5 => exact absurd h tooLong_ne_ok
  | case6 s taken count s₁ s₂ _ h₁ h₂ ih =>
    obtain ⟨rest₁, -, hs₁⟩ := hs.of_next_some h₁
    obtain ⟨rest₂, -, hs₂⟩ := hs₁.of_next_some h₂
    obtain ⟨hlt, hexact⟩ := ih hs₂ h
    rw [if_neg (by omega)]
    have hmore : ExactFrom (count + 2) (n - 1) _ _ :=
      hexact.of_iff fun m hm => ⟨Nat.zero_le m, by split <;> omega⟩
    refine ⟨by omega, hmore.counted (by omega)
      (fun m hm => quotedBody_twice (d := d.limitedTo m) h₁ h₂ hm) fun m _ hm => ?_⟩
    rw [quotedBody_twice_tooLong (d := d.limitedTo m) h₁ h₂ hm]
    exact exists_tooLong _ d m hs₂
  | case7 s taken count s₁ c s₂ h₂ hc h₁ =>
    rw [← h]
    obtain ⟨hfound, -⟩ := Prod.mk.inj h
    obtain ⟨-, rfl⟩ := Prod.mk.inj (Except.ok.inj hfound)
    rw [if_pos rfl]
    exact ⟨Nat.lt_succ_self _, exactFrom_always fun m => quotedBody_close h₁ h₂ hc⟩
  | case8 => exact absurd h tooLong_ne_ok
  | case9 s taken count c s₁ h₁ hc _ ih =>
    obtain ⟨rest₁, -, hs₁⟩ := hs.of_next_some h₁
    obtain ⟨hlt, hexact⟩ := ih hs₁ h
    rw [if_neg (by omega)]
    have hmore : ExactFrom (count + 1) (n - 1) _ _ :=
      hexact.of_iff fun m hm => ⟨Nat.zero_le m, by split <;> omega⟩
    refine ⟨by omega, hmore.counted (by omega)
      (fun m hm => quotedBody_char (d := d.limitedTo m) h₁ hc hm) fun m _ hm => ?_⟩
    rw [quotedBody_char_tooLong (d := d.limitedTo m) h₁ hc hm]
    exact exists_tooLong _ d m hs₁

variable {found : ScannedColumn}

theorem dividedColumn_exactFrom (hs : s.Holds cs) {text : List Char}
    (h : dividedColumn d s text count = (.ok found, s')) :
    count ≤ found.count ∧ found.isLast = false ∧ ExactFrom 0 found.count
      (fun m => dividedColumn (d.limitedTo m) s text count) (.ok found, s') := by
  by_cases hmax : d.max < count + d.field.chars.length
  · rw [dividedColumn, if_pos hmax] at h
    exact absurd h tooLong_ne_ok
  · rw [dividedColumn_ok (Nat.not_lt.1 hmax)] at h
    rw [← h]
    obtain rfl := Except.ok.inj (Prod.mk.inj h).1
    refine ⟨Nat.le_add_right .., rfl, fun m _ => ⟨fun hm => dividedColumn_ok hm, fun hm => ?_⟩⟩
    have hlong : dividedColumn (d.limitedTo m) s text count = tooLong (d.limitedTo m) s :=
      if_pos hm
    obtain ⟨s'', hs''⟩ := exists_tooLong ScannedColumn d m hs
    exact ⟨s'', hlong.trans hs''⟩

theorem afterQuoted_exactFrom (hs : s.Holds cs) {text : List Char}
    (h : afterQuoted d column s text count = (.ok found, s')) :
    (if found.isLast then found.count = count else count ≤ found.count) ∧
      ExactFrom 0 (if found.isLast then 0 else found.count)
        (fun m => afterQuoted (d.limitedTo m) column s text count) (.ok found, s') := by
  simp only [afterQuoted, limitedTo_field, limitedTo_record] at h ⊢
  split at h <;> rename_i hfield
  · simp at h
  · obtain ⟨rest, -, hs₁⟩ := hs.of_tryMatch_true hfield
    obtain ⟨hle, hlast, hexact⟩ := dividedColumn_exactFrom hs₁ h
    simpa [hlast, hle] using hexact
  · split at h <;> rename_i hrecord
    · simp at h
    · obtain rfl := Except.ok.inj (Prod.mk.inj h).1
      exact ⟨rfl, exactFrom_always fun _ => h⟩
    · split at h <;> rename_i hend
      · simp at h
      · obtain rfl := Except.ok.inj (Prod.mk.inj h).1
        exact ⟨rfl, exactFrom_always fun _ => h⟩
      · split at h <;> simp at h

theorem quotedColumn_exactFrom (hs : s.Holds cs)
    (h : quotedColumn d quote column s count = (.ok found, s')) :
    count + 2 ≤ found.count ∧ ExactFrom count
      (found.count - if found.isLast then (if found.count = count + 2 then 2 else 1) else 0)
      (fun m => quotedColumn (d.limitedTo m) quote column s count) (.ok found, s') := by
  simp only [quotedColumn] at h
  split at h <;> rename_i hbody
  · simp at h
  · rename_i text n s₁
    obtain ⟨read, rest, -, hs₁, -, -⟩ := quotedBody_limitedTo d.max hs hbody
    obtain ⟨hlt, hexact⟩ := quotedBody_exactFrom hs hbody
    obtain ⟨hcount, hafter⟩ := afterQuoted_exactFrom hs₁ h
    refine ⟨by grind, fun m hm => ?_⟩
    obtain ⟨hread, hlong⟩ := hexact m (Nat.zero_le m)
    obtain ⟨hread', hlong'⟩ := hafter m (Nat.zero_le m)
    by_cases hn : (if n = count + 1 + 1 then 0 else n - 1) ≤ m
    · simp only [quotedColumn, hread hn]
      refine ⟨fun hle => hread' ?_, fun hlt => hlong' ?_⟩ <;> grind
    · obtain ⟨s'', hbody'⟩ := hlong (Nat.not_le.1 hn)
      simp only [quotedColumn, hbody']
      refine ⟨fun hle => absurd hn ?_, fun _ => ⟨s'', rfl⟩⟩
      grind

theorem bareColumn_exactFrom (hs : s.Holds cs) {taken : List Char}
    (h : bareColumn d s taken count = (.ok found, s')) :
    count ≤ found.count ∧ ExactFrom count found.count
      (fun m => bareColumn (d.limitedTo m) s taken count) (.ok found, s') := by
  fun_induction bareColumn d s taken count generalizing cs with
  | case1 | case3 | case5 => simp at h
  | case2 s taken count s₁ hrecord =>
    obtain rfl := Except.ok.inj (Prod.mk.inj h).1
    exact ⟨Nat.le_refl _, exactFrom_always fun m =>
      (bareColumn_atRecord (d := d.limitedTo m) hrecord).trans h⟩
  | case4 s taken count s₁ hrecord s₂ hfield =>
    obtain ⟨-, hs₁⟩ := hs.of_tryMatch_false hrecord
    obtain ⟨rest, -, hs₂⟩ := hs₁.of_tryMatch_true hfield
    obtain ⟨hle, -, hexact⟩ := dividedColumn_exactFrom hs₂ h
    refine ⟨hle, (hexact.congr fun m => ?_).of_iff fun m _ => ⟨Nat.zero_le m, Iff.rfl⟩⟩
    exact bareColumn_atField (d := d.limitedTo m) hrecord hfield
  | case6 s taken count s₁ hrecord s₂ hfield s₃ hnext =>
    obtain rfl := Except.ok.inj (Prod.mk.inj h).1
    exact ⟨Nat.le_refl _, exactFrom_always fun m =>
      (bareColumn_atEnd (d := d.limitedTo m) hrecord hfield hnext).trans h⟩
  | case7 => exact absurd h tooLong_ne_ok
  | case8 s taken count s₁ hrecord s₂ hfield c s₃ hnext _ ih =>
    obtain ⟨-, hs₁⟩ := hs.of_tryMatch_false hrecord
    obtain ⟨-, hs₂⟩ := hs₁.of_tryMatch_false hfield
    obtain ⟨rest, -, hs₃⟩ := hs₂.of_next_some hnext
    obtain ⟨hle, hexact⟩ := ih hs₃ h
    refine ⟨by omega, hexact.counted hle
      (fun m hm => bareColumn_char (d := d.limitedTo m) hrecord hfield hnext hm) fun m _ hm => ?_⟩
    rw [bareColumn_tooLong (d := d.limitedTo m) hrecord hfield hnext hm]
    exact exists_tooLong _ d m hs₃

/-- The quotes of a last column that no limit is compared with: the one that closes it, and the one
that opens it if there is nothing between them. -/
def uncountedQuotes (quote : Option Char) : List Char → Nat
  | [] => 0
  | c :: rest => if quote = some c then (if rest.length = 1 then 2 else 1) else 0

theorem scanColumn_exactFrom (hs : s.Holds cs)
    (h : scanColumn d column s count = (.ok found, s')) :
    ∃ read ending rest, cs = read ++ (ending ++ rest) ∧ found.count = count + read.length ∧
      (if found.isLast then EndsRecord d ending rest else ending = []) ∧ s'.Holds rest ∧
      ExactFrom count (found.count - if found.isLast then uncountedQuotes d.quote read else 0)
        (fun m => scanColumn (d.limitedTo m) column s count) (.ok found, s') := by
  obtain ⟨read, ending, rest, rfl, hcount, hending, hs', -⟩ := scanColumn_limitedTo d.max hs h
  refine ⟨read, ending, rest, rfl, hcount, hending, hs', ?_⟩
  have hbare (hquote : ∀ c ∈ read.head?, d.quote ≠ some c) : uncountedQuotes d.quote read = 0 := by
    cases read with
    | nil => rfl
    | cons c read => exact if_neg (hquote c rfl)
  simp only [scanColumn, limitedTo_quote] at h ⊢
  split at h
  · rename_i hnone
    rw [hbare fun c _ => by simp [hnone], ite_self, Nat.sub_zero]
    exact (bareColumn_exactFrom hs h).2
  · rename_i quote hquote
    split at h <;> rename_i hnext
    · simp at h
    · obtain rfl := Except.ok.inj (Prod.mk.inj h).1
      obtain rfl : read = [] := List.length_eq_zero_iff.1 (Nat.add_eq_left.1 hcount.symm)
      exact exactFrom_always fun m => h
    · rename_i c s₁
      obtain ⟨behind, hbehind, hs₁⟩ := hs.of_next_some hnext
      have hhead : ∀ c' ∈ read.head?, c' = c := by
        rintro c' hc'
        obtain ⟨tail, rfl⟩ := List.head?_eq_some_iff.1 hc'
        exact (List.cons.inj hbehind).1
      split at h <;> rename_i hc
      · subst hc
        obtain ⟨hle, hexact⟩ := quotedColumn_exactFrom hs₁ h
        obtain ⟨c', read, rfl⟩ := List.exists_cons_of_length_pos (l := read) (by omega)
        obtain rfl := hhead c' rfl
        simp only [uncountedQuotes, hquote, if_true]
        refine hexact.of_iff fun m hm => ⟨hm, ?_⟩
        rw [List.length_cons] at hcount
        grind
      · rw [hbare fun c' hc' => ?_, ite_self, Nat.sub_zero]
        · exact (bareColumn_exactFrom (hs₁.unread c) h).2.congr fun m => if_neg hc
        · rw [hhead c' hc', hquote]
          exact fun heq => hc (Option.some.inj heq).symm

-- ------------------------------------------------------------------
-- Records
-- ------------------------------------------------------------------

theorem uncountedQuotes_le (quote : Option Char) (column : List Char) :
    uncountedQuotes quote column ≤ min 2 column.length := by
  cases column with
  | nil => exact Nat.zero_le _
  | cons c rest =>
    simp only [uncountedQuotes, List.length_cons]
    split <;> [split; skip] <;> omega

def ScannedLast (d : Delimiters) (column count : Nat) (columns : List String)
    (last behind : List Char) (s' : TextStream) : Prop :=
  ∃ init text s, columns = init ++ [text] ∧ s.Holds (last ++ behind) ∧
    scanColumn d (column + init.length) s count = (.ok ⟨text, count + last.length, true⟩, s')

theorem scanColumns_exactFrom {columns : List String} (hs : s.Holds cs)
    (h : scanColumns d column s count = (.ok columns, s')) :
    ∃ front last ending rest, cs = front ++ (last ++ (ending ++ rest)) ∧
      EndsRecord d ending rest ∧ s'.Holds rest ∧
      ScannedLast d column (count + front.length) columns last (ending ++ rest) s' ∧
      ExactFrom count (count + (front ++ last).length - uncountedQuotes d.quote last)
        (fun m => scanColumns (d.limitedTo m) column s count) (.ok columns, s') := by
  fun_induction scanColumns d column s count generalizing cs columns with
  | case1 => simp at h
  | case2 column s count found s₁ hscan hlast =>
    obtain ⟨hcolumns, rfl⟩ := Prod.mk.inj h
    obtain rfl := Except.ok.inj hcolumns
    obtain ⟨last, ending, rest, rfl, hcount, hending, hs', hexact⟩ :=
      scanColumn_exactFrom hs hscan
    obtain ⟨text, n, isLast⟩ := found
    simp only at hlast hcount
    subst hlast hcount
    refine ⟨[], last, ending, rest, rfl, hending, hs', ⟨[], text, s, rfl, hs, hscan⟩,
      fun m hm => ?_⟩
    obtain ⟨hread, hlong⟩ := hexact m hm
    dsimp only at hread hlong
    simp only [scanColumns_eq_readOn]
    refine ⟨fun hl => by rw [hread hl, readOn, if_pos rfl], fun hl => ?_⟩
    obtain ⟨s'', heq⟩ := hlong hl
    exact ⟨s'', by rw [heq, readOn]⟩
  | case3 column s count found s₁ hscan hlast others s₂ hothers ih =>
    obtain ⟨hcolumns, rfl⟩ := Prod.mk.inj h
    obtain ⟨tail, rfl, rfl⟩ := map_eq_ok.1 hcolumns
    obtain ⟨read, ending, rest, rfl, hcount, hnone, hs₁, hexact⟩ := scanColumn_exactFrom hs hscan
    simp only [hlast, Bool.false_eq_true, if_false, Nat.sub_zero] at hnone hexact
    obtain rfl := hnone
    obtain ⟨front, last, ending, rest', rfl, hending, hs', ⟨init, text, s₃, rfl, hs₃, hlastscan⟩,
      hmore⟩ := ih hs₁ hothers
    have hquotes := uncountedQuotes_le d.quote last
    have hcount' (cs : List Char) : count + (read ++ cs).length = found.count + cs.length := by
      rw [List.length_append, hcount, Nat.add_assoc]
    refine ⟨read ++ front, last, ending, rest', by simp, hending, hs',
      ⟨found.text :: init, text, s₃, rfl, hs₃, ?_⟩, ?_⟩
    · rw [← hcount' front] at hlastscan
      simpa [Nat.add_assoc, Nat.add_comm 1] using hlastscan
    · rw [List.append_assoc, hcount' (front ++ last)]
      refine (hmore.map (found.text :: ·)).counted ?_ ?_ ?_
      · rw [List.length_append]
        omega
      · intro m hm
        obtain ⟨hread, -⟩ := hexact m (by omega)
        dsimp only at hread
        rw [scanColumns_eq_readOn, hread hm, readOn, if_neg hlast]
      · intro m hlow hm
        obtain ⟨-, hlong⟩ := hexact m hlow
        dsimp only at hlong
        obtain ⟨s'', heq⟩ := hlong hm
        exact ⟨s'', by rw [scanColumns_eq_readOn, heq, readOn]⟩

/-- A record that is read is no longer than the limit, but for the quotes at its end that are not
counted. It is read in the same way under every limit for which that holds, and refused as too long
under every other one. -/
theorem scanRecord_exactLimit {columns : List String} (hs : s.Holds cs)
    (h : scanRecord d s = (.ok columns, s')) :
    ∃ front last ending rest, cs = front ++ (last ++ (ending ++ rest)) ∧
      EndsRecord d ending rest ∧ s'.Holds rest ∧
      ScannedLast d 1 front.length columns last (ending ++ rest) s' ∧
      (front ++ last).length ≤ d.max + uncountedQuotes d.quote last ∧
      ∀ m, ((front ++ last).length ≤ m + uncountedQuotes d.quote last →
          scanRecord (d.limitedTo m) s = (.ok columns, s')) ∧
        (m + uncountedQuotes d.quote last < (front ++ last).length →
          ∃ s'', scanRecord (d.limitedTo m) s = (.error (.data (.oversize m)), s'')) := by
  obtain ⟨front, last, ending, rest, rfl, hending, hs', hlast, hexact⟩ := scanColumns_exactFrom hs h
  rw [Nat.zero_add] at hlast hexact
  refine ⟨front, last, ending, rest, rfl, hending, hs', hlast, ?_, fun m => ?_⟩
  · refine Nat.not_lt.1 fun hlong => ?_
    obtain ⟨s'', heq⟩ := (hexact d.max (Nat.zero_le _)).2 (by omega)
    cases (Prod.mk.inj (h.symm.trans heq)).1
  · obtain ⟨hread, hlong⟩ := hexact m (Nat.zero_le m)
    exact ⟨fun hle => hread (by omega), fun hlt => hlong (by omega)⟩

def quotedFour : List Char :=
  "\"abcd\"".toList

theorem scanRecord_exactLimit_quotedFour :
    let s : TextStream := .ofSource .ascii
      (.ofBytes (Charset.ascii.encode (.ofList (quotedFour ++ ['\r', '\n', 'z']))))
    quotedFour.length = 6 ∧
      (∃ s', scanRecord (commaSeparated.limitedTo 5) s = (.ok ["abcd"], s') ∧ s'.Holds ['z']) ∧
      ∃ s'', scanRecord (commaSeparated.limitedTo 3) s = (.error (.data (.oversize 3)), s'') := by
  intro s
  have hs : s.Holds (quotedFour ++ ['\r', '\n', 'z']) :=
    TextStream.holds_ofBytes_map fun _ _ => .inl rfl
  have hread : ((scanRecord (commaSeparated.limitedTo 5) s).1.toOption,
      (scanRecord (commaSeparated.limitedTo 5) s).2.remaining) = (some ["abcd"], ['z']) := by
    decide +kernel
  obtain ⟨hread, hleft⟩ := Prod.mk.inj hread
  have hcolumns : scanRecord (commaSeparated.limitedTo 5) s =
      (.ok ["abcd"], (scanRecord (commaSeparated.limitedTo 5) s).2) :=
    Prod.ext (toOption_eq_some.1 hread) rfl
  obtain ⟨front, last, ending, rest, htext, hending, hs', -, hlength, hlimits⟩ :=
    scanRecord_exactLimit hs hcolumns
  obtain rfl : rest = ['z'] := hs'.remaining.symm.trans hleft
  obtain rfl := hending.resolve_right fun hend => List.cons_ne_nil _ _ hend.2
  rw [← List.append_assoc] at htext
  have hrecord : quotedFour = front ++ last := List.append_cancel_right htext
  have hquotes := uncountedQuotes_le commaSeparated.quote last
  have hsix : (front ++ last).length = 6 := congrArg List.length hrecord.symm
  refine ⟨rfl, ⟨_, hcolumns, hs'.quiet, hleft⟩, (hlimits 3).2 ?_⟩
  rw [hsix]
  exact Nat.lt_of_le_of_lt (Nat.add_le_add_left (Nat.le_trans hquotes (Nat.min_le_left ..)) 3)
    (by decide)

end Flatfile.Delimited
