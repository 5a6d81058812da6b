import Flatfile.Error.Data
import Flatfile.Error.Syntax

/-!
# Errors of compiling, reading and writing

The outermost errors: a bad layout, a bad record, a failing file or stream, a call at the wrong
time, and settings that do not fit.
-/

namespace Flatfile

inductive IoFault where
  | interrupted
  | notFound
  | notADirectory
  | isADirectory
  | notUtf8
  | failed (text : String)
  deriving DecidableEq, Repr

def IoFault.message : IoFault → String
  | interrupted => "interrupted"
  | notFound => "No such file or directory (os error 2)"
  | notADirectory => "Not a directory (os error 20)"
  | isADirectory => "Is a directory (os error 21)"
  | notUtf8 => "stream did not contain valid UTF-8"
  | failed text => text

/-- Why the next record of a stream cannot be had: the stream fails, or its data is wrong. -/
inductive RawError where
  | io (fault : IoFault)
  | data (cause : DataCause)
  deriving DecidableEq

inductive StateFault where
  | notInitialized
  | closed
  | noInput
  | noOutput
  deriving DecidableEq, Repr

def StateFault.message : StateFault → String
  | notInitialized => "formatter is not initialized"
  | closed => "formatter is closed"
  | noInput => "no input stream"
  | noOutput => "no output stream"

inductive UnsupportedFault where
  | wrongEngine (source : String) (fileType engine : FileType)
  | structured (fileType : FileType) (source : String)
  deriving DecidableEq, Repr

def UnsupportedFault.message : UnsupportedFault → String
  | wrongEngine source fileType engine =>
    s!"{source} is a {fileType.name} layout, not {engine.name}"
  | structured fileType source =>
    s!"{fileType.name} layouts are handled by the structured-data bridge ({source})"

inductive ConfigFault where
  | malformed
  | notNibble (key : String) (n : Nat)
  | zeroMaxLength
  | missing (source setting : String)
  | missingTitleType (source title : String)
  | inFile (path : String) (fault : ConfigFault)
  deriving DecidableEq, Repr

namespace ConfigFault

def message : ConfigFault → String
  | malformed => "malformed defaults"
  | notNibble key n =>
    let shown := Text.upperHex n
    s!"{key} must be a nibble (0x0..0xF), got 0x{shown}"
  | zeroMaxLength => "max-record-length must be positive"
  | missing source setting => s!"{source}: {setting} is not set"
  | missingTitleType source title =>
    s!"{source}: no record type named '{title}' for the title record"
  | inFile path fault => path ++ ": " ++ fault.message

def isMalformed : ConfigFault → Bool
  | malformed => true
  | inFile _ fault => fault.isMalformed
  | _ => false

end ConfigFault

inductive FormatError where
  | malformed (error : SyntaxError)
  | invalidData (error : InvalidData)
  | io (path : String) (fault : IoFault)
  | state (fault : StateFault)
  | unsupported (fault : UnsupportedFault)
  | config (fault : ConfigFault)
  /-- No error that is handled, but the end of the program. -/
  | panic
  deriving DecidableEq

namespace FormatError

def ofRecord (path : Option String) (number : Nat) (e : InvalidData) : FormatError :=
  if e.cause = .outOfRange then .panic else .invalidData (e.inRecord path number)

def streamPath (path : Option String) : String :=
  path.getD "<stream>"

def onStream (path : Option String) (fault : IoFault) : FormatError :=
  .io (streamPath path) fault

def message : FormatError → String
  | malformed error => "Syntax: " ++ error.message
  | invalidData error => "Invalid data: " ++ error.message
  | io path fault => "IO on " ++ path ++ ": " ++ fault.message
  | state fault => "Formatter state: " ++ fault.message
  | unsupported fault => "Unsupported: " ++ fault.message
  | config fault => "Config: " ++ fault.message
  | panic => "panic"

def reason? : FormatError → Option String
  | malformed error => some error.message
  | invalidData error => some error.message
  | io _ fault => some fault.message
  | _ => none

end FormatError
end Flatfile
