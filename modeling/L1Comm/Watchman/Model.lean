import L1Comm.Python.Iteration
import L1Comm.Python.Script
import L1Comm.Python.Shlex
import Mathlib.Data.List.AList

/-!
`script/watchman.py`: the watchdog that looks for the configured processes with
`pgrep` every ten seconds, starts a process it does not find and sends a mail
when three starts have failed. The functions are scripts over the actions they
perform; what the world answers, the output of each `pgrep` and the outcome of
the mail, is an argument. Texts of the log are kept as constructors with the
values they print, without the time.
-/

namespace L1Comm.Watchman

open Python

inductive LogLine where
  | searchStarting
  | running (search pattern : Text)
  | currentlyRunning (pattern : Text)
  | restarting (pattern : Text)
  | tryingToStart (search pattern : Text)
  | couldNotSend (error : Text)
  | noSearches
  deriving DecidableEq

inductive Action where
  | log (line : LogLine)
  | flush
  | getstatusoutput (command : Text)
  /-- `subprocess.Popen(args, shell=True)`. -/
  | popen (args : List Text)
  | sleep (seconds : ℕ)
  | smtp (host : Text)
  | sendmail (fromEmail toEmail message : Text)
  deriving DecidableEq

inductive PyError where
  | nameError (name : Text)
  | valueError (message : Text)
  | smtpException (message : Text)
  /-- Raised by `sys.exit()`. -/
  | systemExit
  deriving DecidableEq

/-- The classes below `Exception`, among which `SystemExit` is not. -/
def PyError.isException : PyError → Bool
  | .systemExit => false
  | _ => true

abbrev Watch := Script Action PyError

/-- What is read from `watchman.conf`. The searches are a dictionary in the
order in which `iteritems` goes through it. -/
structure Config where
  server : Text
  reportEmail : Text
  domain : Text
  searches : AList (fun _ : Text => Text)

/-- What the world answers in one call of `runSearch`. -/
structure Answers where
  /-- The output of the `pgrep` of `runSearch`. -/
  first : Text
  /-- The output of the `pgrep` after the start with this value of `x`. -/
  afterStart : ℕ → Text
  /-- The exceptions of `smtplib.SMTP` and of `sendmail`, if they raise one. -/
  connectError : Option Text
  sendError : Option Text

/-- The same output of every `pgrep`, and a mail server that answers. -/
def Answers.always (commOutput : Text) : Answers := ⟨commOutput, fun _ => commOutput, none, none⟩

/-- `"pgrep -fl \"" + pattern + "\""`. -/
def pgrep (pattern : Text) : Text := "pgrep -fl \"".toList ++ pattern ++ "\"".toList

/-- `re.search("^.+sh", item)`. -/
def matchesSh : Text → Bool := plus dot (literal ['s', 'h'] fun _ => true)

/-- `commOutputList` after the loop that removes the matching lines. -/
def commOutputList (commOutput : Text) : List Text := removeWhere matchesSh (lines commOutput)

/-- `if commOutputList:`. -/
def running (commOutput : Text) : Bool := !(commOutputList commOutput).isEmpty

/-- `output`, to which nothing is assigned: the line in `restartProcess` that did
is a comment. -/
def output : Watch Text := .throw (.nameError "output".toList)

def raiseIf : Option Text → Watch Unit
  | none => pure ()
  | some message => .throw (.smtpException message)

/-- The mail to whoever needs to know, after the third start has failed. -/
def alert (config : Config) (answers : Answers) (search pattern : Text) : Watch Unit := do
  let fromEmail := "watchman@".toList ++ config.server ++ ".".toList ++ config.domain
  let head := "From: Watchman <".toList ++ fromEmail ++ ">\nTo: Server Admin <".toList ++
    config.reportEmail ++ (">\nMIME-Version: 1.0\nContent-type: text/html\n" ++
    "Subject: Watchman Alert on: ").toList ++ config.server ++ " with: ".toList ++ search ++
    "\n\n".toList
  let body := ("Oh dear.  I found an error when checking for your configured processes.<br />" ++
    "<br /><strong>").toList ++ search ++ "</strong> on server: <strong>".toList ++
    config.server ++ ("</strong> was not running when I checked and I could not restart it.  " ++
    "The search term was <strong>").toList ++ pattern ++ ("</strong><br /><br />" ++
    "You should probably look into this right away.<br /><br />" ++
    "The output from the last attempt was:<br />------------------------<br /> ").toList
  let text ← output
  let errorMessage := head ++ body ++ text
  Script.tryExcept PyError.isException
    (do
      Script.act (.smtp "localhost".toList)
      raiseIf answers.connectError
      Script.act (.sendmail fromEmail config.reportEmail errorMessage)
      raiseIf answers.sendError)
    (fun
      | .smtpException error => Script.act (.log (.couldNotSend error))
      | _ => pure ())

/-- The text of the mail cannot be put together. -/
theorem alert_eq (config : Config) (answers : Answers) (search pattern : Text) :
    alert config answers search pattern = .throw (.nameError "output".toList) :=
  rfl

/-- A start of the process and the check after it; returns whether the loop is
left by `break`. -/
def start (answers : Answers) (search pattern : Text) (args : List Text) (x : ℕ) :
    Watch Bool := do
  Script.act (.log (.tryingToStart search pattern))
  Script.act (.popen args)
  Script.act (.sleep 5)
  Script.act (.getstatusoutput (pgrep pattern))
  return running (answers.afterStart x)

/-- What a start performs. -/
def attempt (search pattern : Text) (args : List Text) : List Action :=
  [.log (.tryingToStart search pattern), .popen args, .sleep 5, .getstatusoutput (pgrep pattern)]

theorem start_eq (answers : Answers) (search pattern : Text) (args : List Text) (x : ℕ) :
    start answers search pattern args x =
      ⟨attempt search pattern args, .ok (running (answers.afterStart x))⟩ :=
  rfl

/-- The loop `while x < 4`, by the number of starts `4 - x` that are left. -/
def startLoop (config : Config) (answers : Answers) (search pattern : Text) (args : List Text) :
    ℕ → Watch Unit
  | 0 => pure ()
  | left + 1 => do
      let started ← start answers search pattern args (3 - left)
      if started then pure ()
      else
        Script.when (left == 0) (alert config answers search pattern)
        startLoop config answers search pattern args left

def restartProcess (config : Config) (answers : Answers) (search pattern : Text) :
    Watch Unit := do
  let args ← Script.lift ((Shlex.split pattern).mapError fun e => .valueError e.toList)
  startLoop config answers search pattern args 3

def runSearch (config : Config) (answers : Answers) (search pattern : Text) : Watch Unit := do
  Script.act (.log (.running search pattern))
  Script.act (.getstatusoutput (pgrep pattern))
  if running answers.first then
    Script.act (.log (.currentlyRunning pattern))
  else
    Script.act (.log (.restarting pattern))
    restartProcess config answers search pattern

/-- One round; the answers are those to each search. -/
def runSearches (config : Config) (answers : Text → Answers) : Watch Unit :=
  match config.searches.entries with
  | [] => do
      Script.act (.log .noSearches)
      Script.throw .systemExit
  | searches => do
      Script.act (.log .searchStarting)
      Script.forEach (fun item => runSearch config (answers item.1) item.1 item.2) searches
      Script.act .flush

/-- The body of the main loop. -/
def pass (config : Config) (answers : Text → Answers) : Watch Unit := do
  runSearches config answers
  Script.act (.sleep 10)

/-- The first `n` passes of `while True`; the answers are those in each round. -/
def watch (config : Config) (answers : ℕ → Text → Answers) (n : ℕ) : Watch Unit :=
  Script.forEach (fun round => pass config (answers round)) (List.range n)

end L1Comm.Watchman
