/-!
# Names

Names in layouts, registries and directives are compared without regard to the case of ASCII
letters; other letters are compared as they are.
-/

namespace Flatfile.Text

def nameKey (name : String) : String :=
  String.ofList (name.toList.map Char.toLower)

def sameName (a b : String) : Bool :=
  nameKey a == nameKey b

theorem sameName_iff {a b : String} : sameName a b = true ↔ nameKey a = nameKey b := by
  simp [sameName]

theorem sameName_refl (a : String) : sameName a a = true := by
  simp [sameName]

theorem sameName_comm (a b : String) : sameName a b = sameName b a := by
  simp [sameName, Bool.beq_comm]

def lookupName (table : List (String × α)) (name : String) : Option α :=
  (table.find? fun entry => sameName entry.1 name).map Prod.snd

end Flatfile.Text
