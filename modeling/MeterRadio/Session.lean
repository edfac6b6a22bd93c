/-
Module: MeterRadio.Session
Purpose: The program as a whole: from its arguments to what it shows and leaves behind.
Main exports: Session.Failure, Session.openingLines, Session.Request, Session.Report, Session.run
-/
import MeterRadio.Config
import MeterRadio.Session.Deposits
import MeterRadio.Trace.Directive
import MeterRadio.Tuner.Client

namespace MeterRadio.Session

/-! ### Failures -/

/-- Why the program ends without success, once it has read its arguments. -/
inductive Failure where
  | config (error : ConfigError)
  | logFile (path : String) (fault : Fault)
  | sampleFile (path : String) (fault : Fault)
  | connection (address : String) (error : TransportError)
  | replayFile (path : String) (error : TransportError)
  | capture (failure : Capture.Failure)
  | serverClosed

/-- The faults behind a transport error, the nearest first. -/
def transportCauses (error : TransportError) : List String :=
  match error with
  | .io fault => [error.message, fault.message]
  | _ => [error.message]

/-- The faults behind the end of a run. -/
def captureCauses (failure : Capture.Failure) : List String :=
  match failure with
  | .transport error => transportCauses error
  | .log error => [failure.message, error.fault.message]
  | .samples fault => [failure.message, fault.message]

namespace Failure

/-- What went wrong, and the causes behind it, the nearest first. -/
def chain : Failure → String × List String
  | .config error => (error.message, [])
  | .logFile path fault => ("failed to open log file " ++ path, [fault.message])
  | .sampleFile path fault => ("failed to create sample file " ++ path, [fault.message])
  | .connection address error =>
    ("failed to connect to rtl_tcp at " ++ address, transportCauses error)
  | .replayFile path error => ("failed to open replay file " ++ path, transportCauses error)
  | .capture failure => ("receiver failed", captureCauses failure)
  | .serverClosed => ("rtl_tcp server closed the connection", [])

/-- Causes with their numbers. -/
def numbered : Nat → List String → List String
  | _, [] => []
  | n, cause :: rest => ("    " ++ Text.decimal n ++ ": " ++ cause) :: numbered (n + 1) rest

/-- The lines that show a failure. A single cause has no number. -/
def lines (f : Failure) : List String :=
  let (what, causes) := f.chain
  Text.lines ("Error: " ++ what) ++ match causes with
    | [] => []
    | [cause] => ["", "Caused by:", "    " ++ cause]
    | _ => "" :: "Caused by:" :: numbered 0 causes

end Failure

/-! ### Trace lines -/

/-- A line of the program itself. -/
def note (message : String) : Trace.Line := Trace.info .program message

/-- The banner. -/
def banner : List Trace.Line :=
  [note "===========================================",
   note "   AMR Capture - ERT meter receiver",
   note "==========================================="]

/-- The word for a truth value. -/
def truthText (b : Bool) : String := if b then "true" else "false"

/-- The filter as it is shown. -/
def filterLines (f : MeterFilter) : List Trace.Line :=
  if f.isEmpty then [note "  Filter: none"]
  else
    [note ("  Meter IDs: " ++ MeterFilter.braced f.meters),
     note ("  Meter types: " ++ MeterFilter.braced f.types)]

/-- The time limit as it is shown, if there is one. -/
def limitLines (limit : Option Time.Span) : List Trace.Line :=
  (limit.map fun span => note ("  Time limit: " ++ span.text)).toList

/-- The lines that show a configuration. -/
def openingLines (c : Config) : List Trace.Line :=
  banner ++ c.profile.report
    ++ [note ("CRC: " ++ c.protocol.crc.description),
        note ("Fast magnitude: " ++ truthText c.fastMagnitude),
        note "Configuration:",
        note ("  Source: " ++ c.origin.text),
        note ("  Format: " ++ c.format.name),
        note ("  Log file: " ++ c.logFile),
        note ("  Sample file: " ++ c.sampleFile.getD "disabled")]
    ++ filterLines c.filter ++ limitLines c.timeLimit

/-- The line shown when a replay was opened. -/
def replayLine (path : String) (bytes : Nat) : Trace.Line :=
  Trace.info .replay
    ("Replaying " ++ path ++ " (" ++ Text.decimal bytes ++ " bytes)")

/-- The lines shown when a connection was opened, with those of the commands sent. -/
def connectionLines (greeting : Tuner.Greeting) (tunings : List Tuning) : List Trace.Line :=
  [note ("Tuner: " ++ greeting.tunerName),
   note ("GainCount: " ++ Text.decimal greeting.gainCount.toNat)]
    ++ tunings.map Tuner.Client.sending

/-- The commands sent to a server: what the user set, then the defaults for the rest. -/
def tunings (c : Config) : List Tuning :=
  c.tuner.tunings ++ c.tuner.defaults c.sampleRate

/-- The line shown when the capture begins. -/
def startLine (c : Config) : Trace.Line :=
  note ("Receiving " ++ c.protocol.name ++ " messages...")

/-- The line shown at the very end of a run that was not interrupted. -/
def closingLines (reason : Capture.ExitReason) : List Trace.Line :=
  if reason.isSilent then [] else [note "Shutdown complete"]

/-- Whether the end of a run is a failure: a server is not expected to close the connection. -/
def failureOf? (origin : SampleOrigin) (reason : Capture.ExitReason) : Option Failure :=
  match origin, reason with
  | .server _, .endOfStream => some .serverClosed
  | _, _ => none

/-! ### What is shown -/

/-- What stands on the error output, as it comes: trace lines, which may be hidden, and other
lines. -/
inductive Shown where
  | trace (line : Trace.Line)
  | plain (line : String)

/-- The name of the environment variable that says which trace lines are shown. -/
def traceVariable : String := "RUST_LOG"

/-- The directives in force: those of the environment if they can be read, or else the threshold
asked for. -/
def directivesFor (environment : List (String × String)) (threshold : Trace.Threshold) :
    List Trace.Directive :=
  match (environment.lookup traceVariable).bind Trace.directives? with
  | some directives => directives
  | none => [.forAll threshold]

/-- The lines that are seen. -/
def visible (directives : List Trace.Directive) (lines : List Shown) : List String :=
  lines.flatMap fun
    | .trace line => if Trace.shown directives line then line.shown else []
    | .plain line => [line]

/-- Trace lines among what is shown. -/
def traced (lines : List Trace.Line) : List Shown := lines.map .trace

/-! ### A whole run -/

/-- What the program starts from. -/
structure Request where
  arguments : List String
  environment : List (String × String)
  files : Files
  /-- What becomes of a connection to a server. -/
  network : Except Fault Source
  /-- The time of every entry. -/
  clock : Time.Timestamp
  /-- The time for which the capture has run whenever it looks at its limit. -/
  elapsed : Time.Span

/-- What the program leaves behind. -/
structure Report where
  exitCode : Nat
  output : Bytes
  errors : List String
  files : Files

/-- Opens the log. -/
def openLog (c : Config) (f : Files) : Except Failure (Files.Target × Files) :=
  if c.logsToOutput then .ok (standardOutput, f)
  else
    match f.create c.logFile with
    | .ok opened => .ok opened
    | .error fault => .error (.logFile c.logFile fault)

/-- Opens the sample file, if samples are to be kept. -/
def openSamples (c : Config) (f : Files) : Except Failure (Option Files.Target × Files) :=
  match c.sampleFile with
  | none => .ok (none, f)
  | some path =>
    match f.create path with
    | .ok (target, f) => .ok (some target, f)
    | .error fault => .error (.sampleFile path fault)

/-- An open source: the lines shown on the way to it, whether it is silent for ever, and what it
delivers, or the failure. -/
structure Opening where
  lines : List Trace.Line
  endless : Bool
  result : Except Failure Source

/-- Opens the source of samples. -/
def openSource (c : Config) (network : Except Fault Source) (f : Files) : Opening :=
  match c.origin with
  | .server address =>
    let attempt := Tuner.Client.connecting address
    match Tuner.Client.connect address network with
    | .error error => ⟨[attempt], false, .error (.connection address error)⟩
    | .ok client =>
      ⟨attempt :: connectionLines client.greeting (tunings c), false, .ok client.source⟩
  | .replay path =>
    match f.open? path with
    | .error fault => ⟨[], false, .error (.replayFile path (.io fault))⟩
    | .ok (length, contents) =>
      let line := replayLine path length
      match contents with
      | .bytes bytes => ⟨[line], false, .ok (.ofBytes bytes)⟩
      | .endless => ⟨[line], true, .ok []⟩
      | .fault fault => ⟨[line], false, .ok [.fault fault]⟩

/-- The capture over all blocks of a source. In an endless silence nothing happens before the time
limit. -/
def capture (r : Request) (c : Config) (log : Files.Target) (samples : Option Files.Target)
    (endless : Bool) (source : Source) : Capture.Outcome Decoder :=
  let setup : Capture.Setup Decoder :=
    { decoder := .ofProfile c.profile
      reader := c.protocol.read
      filter := c.filter
      single := c.single
      logFaults := fun _ => faults log
      sampleFaults := fun _ => (samples.map faults).getD .none }
  let state := Capture.State.fresh (.fresh c.profile c.mode)
    (.fresh c.format samples.isSome .empty) (samples.map fun _ => .fresh)
  let (blocks, ending) := source.drain c.profile.blockBytes
  let readings := blocks.map fun block => ⟨block, r.clock, []⟩
  let signals : Capture.Signals :=
    { Capture.Signals.quiet with
      deadline := c.timeLimit.bind fun limit =>
        if endless || limit.nanoseconds ≤ r.elapsed.nanoseconds then some r.elapsed
        else none }
  Capture.run setup ending signals state readings

/-- What stands on the error output after the capture, and the failure if the program failed. -/
def ending (c : Config) (o : Capture.Outcome Decoder) : List Shown × Option Failure :=
  match o.result with
  | .error failure => (traced o.trace, some (.capture failure))
  | .ok reason =>
    let report := (reason.report?.map Shown.plain).toList
    match failureOf? c.origin reason with
    | some failure => (traced o.trace ++ report, some failure)
    | none => (traced o.trace ++ report ++ traced (closingLines reason), none)

/-- The report of a program that shows the given lines and then fails, or does not. -/
def report (r : Request) (c : Config) (lines : List Shown) (failure : Option Failure)
    (output : Bytes) (files : Files) : Report :=
  { exitCode := if failure.isSome then 1 else 0
    output, files
    errors := visible (directivesFor r.environment c.threshold) lines
      ++ (failure.map Failure.lines).getD [] }

/-- The program after it is configured. -/
def launch (r : Request) (c : Config) : Report :=
  let lines := traced (openingLines c)
  match openLog c r.files with
  | .error failure => report r c lines (some failure) [] r.files
  | .ok (log, files) =>
    match openSamples c files with
    | .error failure => report r c lines (some failure) [] files
    | .ok (samples, files) =>
      let opening := openSource c r.network files
      let lines := lines ++ traced opening.lines
      match opening.result with
      | .error failure => report r c lines (some failure) [] files
      | .ok source =>
        let outcome := capture r c log samples opening.endless source
        let deposits := Deposits.ofOutcome log samples outcome
        let (more, failure) := ending c outcome
        report r c (lines ++ [.trace (startLine c)] ++ more) failure deposits.output
          (deposits.stored files)

/-- The line that tells the version. -/
def versionLine : String := "amr-capture 0.1.0"

/-- The exit code after arguments that are not taken. -/
def refusalCode (refusal : CommandLine.Refusal) : Nat :=
  if refusal.isRequest then 0 else 2

/-- What the standard output tells after arguments that are not taken. -/
def refusalOutput : CommandLine.Refusal → Bytes
  | .version => encoded (versionLine.toList ++ ['\n'])
  | _ => []

/-- The program. Help and complaints about arguments are left to the outer layer. -/
def run (r : Request) : Report :=
  match CommandLine.parse r.arguments r.environment with
  | .error refusal => ⟨refusalCode refusal, refusalOutput refusal, [], r.files⟩
  | .ok arguments =>
    match Config.ofArguments arguments with
    | .error error => ⟨1, [], (Failure.config error).lines, r.files⟩
    | .ok config => launch r config

end MeterRadio.Session
