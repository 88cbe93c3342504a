import L1Comm.Machine.Registers
import L1Comm.Watchman.Model
import Mathlib.Data.Finmap

/-!
`loadConfig` of `script/watchman.py`: it reads `watchman.conf` line by line and
sets the globals of the script from the lines that name one of them. A file
that cannot be read is replaced by a blank one. The dictionary of searches has
no order here; a `Config` of the main loop is one order of it.
-/

namespace L1Comm.Watchman

open Python

/-- The globals that `loadConfig` sets. -/
@[ext] structure Globals where
  server : Text
  reportEmail : Text
  domain : Text
  searches : Finmap (fun _ : Text => Text)

/-- As the script initialises them. -/
def Globals.initial : Globals := ⟨[], [], [], ∅⟩

def Config.globals (config : Config) : Globals :=
  ⟨config.server, config.reportEmail, config.domain, config.searches.toFinmap⟩

def server : Text := "server".toList

def domain : Text := "domain".toList

def reportEmail : Text := "reportEmail".toList

def search : Text := "Search".toList

/-- `re.search("^key=.+", line)`. -/
def names (key line : Text) : Bool := literal (key ++ ['=']) (plus dot fun _ => true) line

/-- `re.search("^key=(.+)", line).group(1)`. -/
def group (key line : Text) : Option Text :=
  (literalGroup (key ++ ['=']) restOfLine line).map (·.1)

/-- `if re.search("^key=.+", line):`, with the assignment of the group to a
global that was `old`. -/
def assign (key old line : Text) : Text :=
  if names key line then (group key line).getD old else old

/-- Both groups of `re.search("^(Search\d+)=(.+)", line)`. -/
def searchGroups (line : Text) : Option (Text × Text) :=
  (literalGroup search (plusGroup digit (literalGroup ['='] restOfLine)) line).map
    fun groups => (search ++ groups.1, groups.2.1)

/-- The body of `for line in f`. -/
def readLine (g : Globals) (line : Text) : Globals :=
  if literal ['['] (fun _ => true) line then g
  else if literal ['#'] (fun _ => true) line then g
  else if line = ['\n'] then g
  else
    let g := {g with server := assign server g.server line}
    let g := {g with domain := assign domain g.domain line}
    let g := {g with reportEmail := assign reportEmail g.reportEmail line}
    match searchGroups line with
    | some (name, value) => {g with searches := g.searches.insert name value}
    | none => g

/-- The loop over the lines of the file. -/
def load (conf : Text) : Globals := (fileLines conf).foldl readLine .initial

/-- What is written for want of a configuration. -/
def blankConf : Text :=
  "[General]\n".toList ++
    "#These 3 vars MUST be set correctly for the script to work\n\n".toList ++
    "#server can get retrieved from hostname linux command\n".toList ++
    "server=server1\n\n".toList ++
    "#this is the email where errors will be sent\n".toList ++
    "reportEmail=you@yourdomain.com\n\n".toList ++
    "#any domain that has send permissions in sendmail\n".toList ++
    "domain=yourdomain.com\n\n".toList ++
    "[Searches]\n".toList ++
    "#You can add multiple search patterns in the key=value formation e.g.\n".toList ++
    "#Search1=searchd\n".toList ++
    "#Search2=searche\n".toList

/-- What `loadConfig` prints, to the log or (the last two) to the standard output. -/
inductive LoadLine where
  | couldNotFind | createdBlank | couldNotCreate | errorWas
  deriving DecidableEq

inductive LoadError where
  | unboundLocalError (name : Text)
  | ioError (message : Text)
  deriving DecidableEq

/-- What opening `watchman.conf` gives. -/
inductive ConfFile where
  | readable (conf : Text)
  /-- It cannot be read, but a blank one can be written and read. -/
  | creatable
  /-- A blank one can be written, and not be read. -/
  | writable
  | unusable

/-- The branches of the two `try` statements around `open`. Where both fail, the
variable `f` of the loop is the file opened for writing, or has no value. -/
def loadConfig : ConfFile → Script LoadLine LoadError Globals
  | .readable conf => pure (load conf)
  | .creatable => do
      Script.act .couldNotFind
      Script.act .createdBlank
      pure (load blankConf)
  | .writable => do
      Script.act .couldNotFind
      Script.act .createdBlank
      Script.act .couldNotCreate
      Script.act .errorWas
      Script.throw (.ioError "File not open for reading".toList)
  | .unusable => do
      Script.act .couldNotFind
      Script.act .couldNotCreate
      Script.act .errorWas
      Script.throw (.unboundLocalError "f".toList)

end L1Comm.Watchman
