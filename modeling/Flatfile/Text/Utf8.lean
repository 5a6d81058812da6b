/-!
# UTF-8

The encoding of a character, the strict reading of one character, and the reading of a whole
buffer in which ill-formed bytes stand for replacement characters: each longest start of a
character that the next byte cannot continue gives one.
-/

namespace Flatfile.Text.Utf8

def replacement : Char := '\uFFFD'

def encode (text : String) : List UInt8 :=
  text.toList.flatMap String.utf8EncodeChar

def isContinuation (b : UInt8) : Bool :=
  0x80 ≤ b && b ≤ 0xBF

/-- How many bytes follow a lead byte, and the bounds of the first of them. Bytes that start no
character have no entry. -/
def follow? (lead : UInt8) : Option (Nat × UInt8 × UInt8) :=
  if 0xC2 ≤ lead ∧ lead ≤ 0xDF then some (1, 0x80, 0xBF)
  else if lead = 0xE0 then some (2, 0xA0, 0xBF)
  else if lead = 0xED then some (2, 0x80, 0x9F)
  else if 0xE1 ≤ lead ∧ lead ≤ 0xEF then some (2, 0x80, 0xBF)
  else if lead = 0xF0 then some (3, 0x90, 0xBF)
  else if 0xF1 ≤ lead ∧ lead ≤ 0xF3 then some (3, 0x80, 0xBF)
  else if lead = 0xF4 then some (3, 0x80, 0x8F)
  else none

def assemble (lead : UInt8) (more : List UInt8) : Char :=
  let start := match more.length with
    | 1 => lead.toNat % 0x20
    | 2 => lead.toNat % 0x10
    | _ => lead.toNat % 0x08
  Char.ofNat (more.foldl (fun n b => n * 0x40 + b.toNat % 0x40) start)

def followers (n : Nat) (low high : UInt8) (bs : List UInt8) : List UInt8 :=
  match n, bs with
  | n + 1, b :: rest =>
    if low ≤ b ∧ b ≤ high then b :: (rest.take n).takeWhile isContinuation else []
  | _, _ => []

/-- What the bytes after `lead` give: a character, or a replacement when they break off; with the
bytes that belong to it. -/
def readAfter (lead : UInt8) (rest : List UInt8) : Option Char × List UInt8 :=
  if lead < 0x80 then (some (Char.ofNat lead.toNat), [])
  else match follow? lead with
    | none => (none, [])
    | some (n, low, high) =>
      let more := followers n low high rest
      (if more.length = n then some (assemble lead more) else none, more)

def decodeLossy : List UInt8 → List Char
  | [] => []
  | lead :: rest =>
    let read := readAfter lead rest
    read.1.getD replacement :: decodeLossy (rest.drop read.2.length)
termination_by bs => bs.length
decreasing_by simp only [List.length_drop, List.length_cons]; omega

def decode? : List UInt8 → Option (List Char)
  | [] => some []
  | lead :: rest =>
    let read := readAfter lead rest
    match read.1 with
    | none => none
    | some c => (decode? (rest.drop read.2.length)).map (c :: ·)
termination_by bs => bs.length
decreasing_by simp only [List.length_drop, List.length_cons]; omega

end Flatfile.Text.Utf8
