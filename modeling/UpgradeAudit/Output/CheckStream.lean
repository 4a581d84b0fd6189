/-
# The output of staticcheck

A stream of records, one for each problem.  A record names a range of lines, which are read
from the source file itself; an end before the start means the first line alone.
-/
import UpgradeAudit.Host.Action
import UpgradeAudit.Issue
import UpgradeAudit.Output.Document
import UpgradeAudit.Text.Lines

namespace UpgradeAudit.Output.CheckStream

/-! ## 1. Records -/

/-- A place in a source file. -/
structure Place where
  file : String
  line : Int
  column : Int
  deriving DecidableEq, Repr

/-- A problem. -/
structure Problem where
  code : String
  location : Place
  stop : Option Place
  message : String
  deriving DecidableEq, Repr

/-- A place in a source file. -/
def placeOfJson : Json.Reader Place := fun v => do
  let fields ← Json.asFields v
  let file ← optional fields ["file"] Json.asText ""
  let line ← optional fields ["line"] Json.asInt 0
  let column ← optional fields ["column"] Json.asInt 0
  return ⟨file, line, column⟩

/-- A problem. -/
def problemOfJson : Json.Reader Problem := fun v => do
  let fields ← Json.asFields v
  let code ← required fields ["code"] Json.asText
  let _ ← optional fields ["severity"] Json.asText ""
  let location ← required fields ["location"] placeOfJson
  let stop ← optional fields ["end"] (Json.orAbsent placeOfJson) none
  let message ← optional fields ["message"] Json.asText ""
  return { code, location, stop, message }

/-! ## 2. Source lines -/

/-- The greatest line number that can be asked for. -/
def lineLimit : Int := 0x7fffffffffffffff

/-- The lines of a source file. -/
def fileLines (content : Bytes) : List String :=
  (Text.lines Text.endsSourceLine (Text.Utf8.decodeLossy content).toList).map String.ofList

/-- The lines `start` to `stop` of a list, counted from one; the line `start` alone when `stop`
comes before it. -/
def range (lines : List α) (start stop : Int) : List α :=
  if start < 1 then []
  else (lines.drop (start - 1).toNat).take (max start stop - (start - 1)).toNat

/-- The lines `start` to `stop` of a source file.  Without a first line nothing is read. -/
def readLines (path : String) (start stop : Int) : Action (List String) := do
  if start < 1 then return []
  let content ← Action.readFile path
  if max start stop > lineLimit then
    Action.failFor (.lineOutOfRange (max start stop))
  return range (fileLines content) start stop

/-! ## 3. Issues -/

/-- The path under which the source file of a problem is read. -/
def sourcePath (workDir : Option String) (file : String) : String :=
  match workDir with
  | none | some "" => file
  | some dir => if file = "" then file else Path.join dir file

/-- The issue of a problem with its source lines. -/
def Problem.issue (moduleCache : String) (workDir : Option String) (p : Problem)
    (lines : List String) : Issue where
  linter := "staticcheck " ++ p.code
  text := Issue.trimMessage p.message
  position :=
    { filename := Path.relativeToRoot p.location.file moduleCache workDir
      line := p.location.line
      column := p.location.column
      offset := (p.stop.map Place.column).getD 0 }
  sourceLines := Issue.normaliseLines lines

/-- The issue of a problem, its source lines read from the file. -/
def issueOf (moduleCache : String) (workDir : Option String) (p : Problem) : Action Issue := do
  let path := sourcePath workDir p.location.file
  let lines ← if path = "" then pure []
    else (readLines path p.location.line ((p.stop.map Place.line).getD 0)).onFileError fun e =>
      .analyzer Tool.staticcheck.name ("reading source file " ++ path ++ ": " ++ e.message)
  return p.issue moduleCache workDir lines

/-- The issues of several problems, one after the other. -/
def issuesOf (moduleCache : String) (workDir : Option String) : List Problem → Action (List Issue)
  | [] => return []
  | p :: rest => do
    let issue ← issueOf moduleCache workDir p
    return issue :: (← issuesOf moduleCache workDir rest)

/-- The problems of a document. -/
def problems (d : Document) (room : Nat) : Except Cause (List Problem) :=
  match (Json.stream d.lossyText room).decode problemOfJson with
  | .ok problems => .ok problems
  | .error fault => .error (decodingCause .staticcheck fault)

/-- The issues of a document. -/
def decode (d : Document) (moduleCache : String) (workDir : Option String) :
    Action (List Issue) := do
  issuesOf moduleCache workDir (← Action.ofCauses (problems d (← Action.room)))

end UpgradeAudit.Output.CheckStream
