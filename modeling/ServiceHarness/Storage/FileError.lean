/-!
# Failures of file calls

The causes for which a file operation can fail, and their texts.
-/

namespace ServiceHarness.Storage

inductive FileError where
  | notFound
  | inputOutput
  | permissionDenied
  | busy
  | alreadyExists
  | notDirectory
  | isDirectory
  | fileTooLarge
  | noSpace
  | readOnly
  | nameTooLong
  | tooManyLinks
  | quotaExceeded
  | outOfMemory
  | nulInPath
  | invalidText
  | noFileName
  | tooManyStaged
  deriving DecidableEq, Repr

namespace FileError

def number? : FileError → Option Nat
  | notFound => some 2
  | inputOutput => some 5
  | permissionDenied => some 13
  | busy => some 16
  | alreadyExists => some 17
  | notDirectory => some 20
  | isDirectory => some 21
  | fileTooLarge => some 27
  | noSpace => some 28
  | readOnly => some 30
  | nameTooLong => some 36
  | tooManyLinks => some 40
  | quotaExceeded => some 122
  | outOfMemory => none
  | nulInPath => none
  | invalidText => none
  | noFileName => none
  | tooManyStaged => none

def cause : FileError → String
  | notFound => "No such file or directory"
  | inputOutput => "Input/output error"
  | permissionDenied => "Permission denied"
  | busy => "Device or resource busy"
  | alreadyExists => "File exists"
  | notDirectory => "Not a directory"
  | isDirectory => "Is a directory"
  | fileTooLarge => "File too large"
  | noSpace => "No space left on device"
  | readOnly => "Read-only file system"
  | nameTooLong => "File name too long"
  | tooManyLinks => "Too many levels of symbolic links"
  | quotaExceeded => "Disk quota exceeded"
  | outOfMemory => "out of memory"
  | nulInPath => "file name contained an unexpected NUL byte"
  | invalidText => "stream did not contain valid UTF-8"
  | noFileName => "output path does not include a file name"
  | tooManyStaged => "too many temporary files exist"

def message (e : FileError) : String :=
  e.cause ++ match e.number? with
    | some n => " (os error " ++ toString n ++ ")"
    | none => ""

def ofNumber? (n : Nat) : Option FileError :=
  [notFound, inputOutput, permissionDenied, busy, alreadyExists, notDirectory, isDirectory,
    fileTooLarge, noSpace, readOnly, nameTooLong, tooManyLinks,
    quotaExceeded].find? fun e => e.number? = some n

end FileError

end ServiceHarness.Storage
