import Flatfile.Defaults.Toml
import Flatfile.Schema.Link
import Flatfile.Store.Files

/-!
# Layouts and defaults in files

Errors name the file by the path that was given.
-/

namespace Flatfile

def Schema.ofFile (files : Files) (ctx : LinkContext) (path : String) :
    Except FormatError Schema := do
  let text ← (files.readText path).mapError (.io path)
  (Schema.compile ctx text (some path)).mapError .malformed

def Defaults.ofFile (files : Files) (path : String) : Except FormatError Defaults := do
  let text ← (files.readText path).mapError (.io path)
  (Defaults.ofToml text).mapError fun fault => .config (.inFile path fault)

end Flatfile
