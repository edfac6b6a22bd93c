/-
Module: MeterRadio.Main
Purpose: The program on a real system: files, clock and environment around the session.
Main exports: main
-/
import MeterRadio.Session
import Std.Time.DateTime.Timestamp

namespace MeterRadio.Main

/-! ### The system -/

/-- The fault behind a failed operation of the system. -/
def faultOf (e : IO.Error) : Fault :=
  match e with
  | .noFileOrDirectory .. => .notFound
  | .inappropriateType .. => .isADirectory
  | .resourceExhausted .. => .noSpace
  | .permissionDenied .. => .system "Permission denied" 13
  | .interrupted .. => .interrupted
  | .resourceVanished .. => .system "Broken pipe" 32
  | other => .system (toString other) 5

/-- Carries out an operation and catches its fault. -/
def attempt {α : Type} (operation : IO α) : IO (Except Fault α) := do
  try
    return .ok (← operation)
  catch e => return .error (faultOf e)

/-- The environment variables that the program looks at. -/
def environment : IO (List (String × String)) := do
  let names := Session.traceVariable
    :: CommandLine.Setting.all.filterMap CommandLine.Setting.environmentName?
  let mut found := []
  for name in names do
    if let some value ← IO.getEnv name then found := (name, value) :: found
  return found

/-- The time now. -/
def now : IO Time.Timestamp := do
  let t := (← Std.Time.Timestamp.now).toNanosecondsSinceUnixEpoch.val
  return ⟨t / 1000000000, (t % 1000000000).toNat⟩

/-- Shows what stands on the error output. -/
def display (directives : List Trace.Directive) (shown : List Session.Shown) : IO Unit := do
  for line in Session.visible directives shown do
    IO.eprintln line

/-- Shows a failure; the exit code is that of a program that failed. -/
def fail (failure : Session.Failure) : IO UInt32 := do
  for line in failure.lines do
    IO.eprintln line
  return 1

/-- The lines that list the options. -/
def usage : List String :=
  ["Usage: amr-capture [OPTIONS]", "", "Options:"]
    ++ (CommandLine.Setting.all.map fun s =>
      "      --" ++ s.name ++ (if s.isSwitch then "" else " <VALUE>"))
    ++ ["  -v, --verbose...", "  -q, --quiet...", "  -h, --help", "  -V, --version"]

/-! ### The capture -/

/-- The files that a capture writes to. -/
structure Streams where
  log : IO.FS.Stream
  samples : Option IO.FS.Handle

/-- Writes out what has reached the sinks. -/
def deliver (streams : Streams) (s : Capture.State Decoder) : IO (Option Capture.Failure) := do
  let text := String.ofList s.log.sink.contents
  if !text.isEmpty then
    if let .error fault ← attempt (do streams.log.putStr text; streams.log.flush) then
      return some (.log (Log.Writer.writeFailure s.log.format fault))
  if let (some file, some handle) := (s.samples, streams.samples) then
    let window := ByteArray.mk file.sink.contents.toArray
    if let .error fault ← attempt (do handle.write window; handle.flush) then
      return some (.samples fault)
  return none

/-- The state with empty sinks and no trace lines. A writer that met no fault holds nothing
back, so a fresh one goes on where it stopped. -/
def emptied (s : Capture.State Decoder) : Capture.State Decoder :=
  { s with
    log := .fresh s.log.format s.log.withOffset .empty
    samples := s.samples.map fun file => { file with sink := .empty }
    trace := [] }

/-- The signals after so much time. -/
def signalsAt (limit : Option Time.Span) (elapsed : Time.Span) : Capture.Signals :=
  { Capture.Signals.quiet with
    deadline := limit.bind fun span =>
      if span.nanoseconds ≤ elapsed.nanoseconds then some elapsed else none }

/-- Runs the capture until it ends. -/
partial def capture (c : Config) (directives : List Trace.Directive)
    (setup : Capture.Setup Decoder) (streams : Streams) (started : Nat) (source : Source)
    (s : Capture.State Decoder) : IO (Capture.State Decoder × Capture.Result) := do
  let elapsed : Time.Span := ⟨(← IO.monoNanosNow) - started⟩
  if let some reason := (signalsAt c.timeLimit elapsed).poll then return (s, .ok reason)
  match source.read setup.decoder.blockBytes with
  | (.error error, _) => return (s, Capture.afterError error)
  | (.ok block, source) =>
    let (s, result) := Capture.turn setup (← now) s block
    display directives (Session.traced s.trace.reverse)
    if let some failure ← deliver streams s then return (emptied s, .error failure)
    match result with
    | some result => return (emptied s, result)
    | none => capture c directives setup streams started source (emptied s)

/-- Runs the capture from its first block on, and ends the program. -/
def receive (c : Config) (directives : List Trace.Directive) (streams : Streams)
    (source : Source) : IO UInt32 := do
  display directives (Session.traced [Session.startLine c])
  let setup : Capture.Setup Decoder :=
    { decoder := .ofProfile c.profile, reader := c.protocol.read, filter := c.filter
      single := c.single, logFaults := fun _ => .none, sampleFaults := fun _ => .none }
  let start := Capture.State.fresh (.fresh c.profile c.mode)
    (.fresh c.format c.sampleFile.isSome .empty) (c.sampleFile.map fun _ => .fresh)
  let (s, result) ← capture c directives setup streams (← IO.monoNanosNow) source start
  let (shown, failure) := Session.ending c ⟨s, result, []⟩
  display directives shown
  match failure with
  | some failure => fail failure
  | none => return 0

/-- Opens the source of samples. There is no way to a server here. -/
def openSource (c : Config) : IO Session.Opening := do
  match c.origin with
  | .server _ => return Session.openSource c (.error .networkUnreachable) ⟨[], []⟩
  | .replay path =>
    match ← attempt (IO.FS.readBinFile path) with
    | .error fault => return ⟨[], false, .error (.replayFile path (.io fault))⟩
    | .ok bytes =>
      return ⟨[Session.replayLine path bytes.size], false, .ok (.ofBytes bytes.toList)⟩

/-- Opens the log. -/
def openLog (c : Config) : IO (Except Session.Failure IO.FS.Stream) := do
  if c.logsToOutput then return .ok (← IO.getStdout)
  match ← attempt (IO.FS.Handle.mk c.logFile .write) with
  | .ok handle => return .ok (.ofHandle handle)
  | .error fault => return .error (.logFile c.logFile fault)

/-- Opens the sample file, if samples are to be kept. -/
def openSamples (c : Config) : IO (Except Session.Failure (Option IO.FS.Handle)) := do
  match c.sampleFile with
  | none => return .ok none
  | some path =>
    match ← attempt (IO.FS.Handle.mk path .write) with
    | .ok handle => return .ok (some handle)
    | .error fault => return .error (.sampleFile path fault)

/-- The program after it is configured. -/
def launch (c : Config) (directives : List Trace.Directive) : IO UInt32 := do
  display directives (Session.traced (Session.openingLines c))
  match ← openLog c with
  | .error failure => fail failure
  | .ok log =>
    match ← openSamples c with
    | .error failure => fail failure
    | .ok samples =>
      let opening ← openSource c
      display directives (Session.traced opening.lines)
      match opening.result with
      | .error failure => fail failure
      | .ok source => receive c directives ⟨log, samples⟩ source

/-- The program. -/
def run (arguments : List String) : IO UInt32 := do
  let environment ← environment
  match CommandLine.parse arguments environment with
  | .error .help =>
    usage.forM IO.println
    return 0
  | .error refusal =>
    (← IO.getStdout).write (ByteArray.mk (Session.refusalOutput refusal).toArray)
    if !refusal.isRequest then IO.eprintln "error: these arguments are not taken"
    return UInt32.ofNat (Session.refusalCode refusal)
  | .ok given =>
    match Config.ofArguments given with
    | .error error => fail (.config error)
    | .ok c => launch c (Session.directivesFor environment c.threshold)

end MeterRadio.Main

/-- Runs the program. -/
def main (arguments : List String) : IO UInt32 :=
  MeterRadio.Main.run arguments
