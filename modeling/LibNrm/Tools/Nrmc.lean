import LibNrm.Messages
import LibNrm.Scope.Json
import LibNrm.Tools
import LibNrm.Utils.Join

namespace LibNrm.Nrmc

open Data.Getopt

/-! From the words behind the name of the program to what is asked of the client library.
The scan of a command goes on with the `optind` that the scan before it left, unless
the command sets it.  What becomes of a request is in the model of the client.
-/

/-- `environ` -/
abbrev Env := NrmString → Option NrmString

inductive Asked where
  | help
  | version
  | connect (retries : Int)
  | actuate (name value : NrmString)
  | addScope (scope : Scope)
  | add (type : TargetType) (name : NrmString)
  | find (type : TargetType) (name : NrmString)
  | listen (topic : NrmString)
  | list (type : TargetType)
  | sendEvent (name scope : NrmString)
  | remove (type : TargetType) (all : Bool) (name : NrmString)
  | exec (env : Env) (argv : List NrmString)
  | exit
  | tick

/-- `EXIT_FAILURE`, returned before anything was asked. -/
def exitFailure : Except ToolsStop A := .error (.returned 1)

/-- `cmd_connect` -/
def cmdConnect (words : List NrmString) : Except ToolsStop Asked :=
  if words.length + 1 > 3 then exitFailure
  else
    match words with
    | [word] =>
        let parsed := parseUint word 5
        if parsed.1 = 0 then .ok (.connect parsed.2) else .error (.fault .assertionFailed)
    | _ => .ok (.connect 5)

/-- `cmd_actuate` -/
def cmdActuate : List NrmString → Except ToolsStop Asked
  | name :: value :: _ => .ok (.actuate name value)
  | _ => exitFailure

/-- `cmd_add_scope` -/
def cmdAddScope (jansson : Jansson) : List NrmString → Except ToolsStop Asked
  | [name, param] =>
      let (err, scope) := scopeFromJson jansson (scopeCreate name) (jansson.loads param)
      if err ≠ 0 then exitFailure else .ok (.addScope scope)
  | _ => exitFailure

/-- The commands with one name. -/
def cmdNamed (ask : NrmString → Asked) : List NrmString → Except ToolsStop Asked
  | name :: _ => .ok (ask name)
  | [] => exitFailure

/-- `cmd_listen` -/
def cmdListen : List NrmString → Except ToolsStop Asked
  | [] => .ok (.listen [])
  | [topic] => .ok (.listen topic)
  | _ => exitFailure

/-- `cmd_send_event` -/
def cmdSendEvent : List NrmString → Except ToolsStop Asked
  | name :: scope :: _ => .ok (.sendEvent name scope)
  | _ => exitFailure

/-- The options of the commands that remove, `-a` and `--all`. -/
def removeOptions : Options UInt8 Unit where
  dash := 45
  equals := 61
  shorts := [⟨97, (), false⟩]
  longs := [⟨[97, 108, 108], (), false⟩]
  plain := by decide

/-- The words from `argv[optind]` on, where `argv[0]` is the command. -/
def wordsFrom (optind : Nat) (words : List NrmString) : Except ToolsStop (List NrmString) :=
  if words.length + 1 < optind then .error (.fault .danglingPointer)
  else .ok (words.drop (optind - 1))

/-- The loop over the options, with `ask_all` and the words that are left. -/
def scanAskAll (words : List NrmString) : Except ToolsStop (Bool × List NrmString) :=
  scan removeOptions (fun _ _ _ => .ok true) (.returned 1) (.returned 1) false ⟨[], words⟩

/-- `cmd_remove_scope`, `cmd_remove_sensor` and `cmd_remove_slice`; `position` is where
the name is looked for among the words that are left.  A name that is NULL is refused by
`nrm_client_find`. -/
def cmdRemove (type : TargetType) (position optind : Nat) (words : List NrmString) :
    Except ToolsStop Asked := do
  let words ← wordsFrom optind words
  let (askAll, rest) ← scanAskAll words
  if rest.length < 1 then exitFailure
  else
    match rest[position]? with
    | none => exitFailure
    | some name => .ok (.remove type askAll name)

def cmdRemoveScope : Nat → List NrmString → Except ToolsStop Asked := cmdRemove .scope 0
def cmdRemoveSensor : Nat → List NrmString → Except ToolsStop Asked := cmdRemove .sensor 0
def cmdRemoveSlice : Nat → List NrmString → Except ToolsStop Asked := cmdRemove .slice 1

inductive RunOption where
  | preload
  | ompt
deriving DecidableEq, Repr

/-- `cmd_run_short_options` and `cmd_run_long_options` -/
def runOptions : Options UInt8 RunOption where
  dash := 45
  equals := 61
  shorts := [⟨100, .preload, true⟩, ⟨116, .ompt, true⟩]
  longs := [⟨[112, 114, 101, 108, 111, 97, 100], .preload, true⟩, ⟨[111, 109, 112, 116], .ompt, true⟩]
  plain := by decide

/-- `LD_PRELOAD` -/
def ldPreload : NrmString := [76, 68, 95, 80, 82, 69, 76, 79, 65, 68]

/-- `OMP_TOOL_LIBRARIES` -/
def ompToolLibraries : NrmString :=
  [79, 77, 80, 95, 84, 79, 79, 76, 95, 76, 73, 66, 82, 65, 82, 73, 69, 83]

/-- The strings, and the two vectors of them. -/
structure Libraries where
  heap : StringHeap
  preloads : List Nat
  ompt : List Nat

/-- `nrmc_string_getenv` -/
def stringGetenv (env : Env) (envname : NrmString) (heap : StringHeap) (vec : List Nat) :
    StringHeap × List Nat :=
  match env envname with
  | none => (heap, vec)
  | some envstr =>
      let (heap, ret) := heap.stringNew (stringFromchar envstr)
      (heap, vec ++ [ret])

/-- `nrmc_string_setenv` -/
def stringSetenv (env : Env) (envname : NrmString) (heap : StringHeap) (vec : List Nat) :
    Exec (StringHeap × Env) := do
  let (heap, val) ← heap.stringVjoin 58 (vec.map some)
  let value ← heap.content val
  let heap ← heap.stringDecref val
  pure (heap, Function.update env envname (some value))

/-- The `switch` of `cmd_run`. -/
def runAct (libraries : Libraries) (option : RunOption) (optarg : Option NrmString) :
    Except ToolsStop Libraries :=
  withOptarg optarg fun optarg =>
    let (heap, path) := libraries.heap.stringNew (stringFromchar optarg)
    match option with
    | .preload => .ok { libraries with heap := heap, preloads := libraries.preloads ++ [path] }
    | .ompt => .ok { libraries with heap := heap, ompt := libraries.ompt ++ [path] }

/-- What is done with the two vectors before `execvp`. -/
def setLibraries (env : Env) (libraries : Libraries) : Exec (StringHeap × Env) := do
  let (heap, env) ← stringSetenv env ldPreload libraries.heap libraries.preloads
  let heap ← libraries.preloads.foldlM StringHeap.stringDecref heap
  let (heap, env) ← stringSetenv env ompToolLibraries heap libraries.ompt
  let heap ← libraries.ompt.foldlM StringHeap.stringDecref heap
  pure (heap, env)

/-- `cmd_run`, up to `execvp`. -/
def cmdRun (env : Env) (heap : StringHeap) (words : List NrmString) : Except ToolsStop Asked :=
  let (heap, preloads) := stringGetenv env ldPreload heap []
  let (heap, ompt) := stringGetenv env ompToolLibraries heap []
  match scan runOptions runAct (.returned 1) (.returned 1) ⟨heap, preloads, ompt⟩ ⟨[], words⟩ with
  | .error stop => .error stop
  | .ok (libraries, argv) =>
      if argv.length < 1 then exitFailure
      else
        match setLibraries env libraries with
        | .error fault => .error (.fault fault)
        | .ok (_, env) => .ok (.exec env argv)

inductive Command where
  | actuate
  | addScope
  | addSlice
  | addSensor
  | findActuator
  | findScope
  | findSlice
  | findSensor
  | listen
  | listActuators
  | listScopes
  | listSlices
  | listSensors
  | sendEvent
  | removeScope
  | removeSlice
  | removeSensor
  | run
  | exit
  | tick
deriving DecidableEq, Repr

def Command.name : Command → NrmString
  | .actuate => [97, 99, 116, 117, 97, 116, 101]
  | .addScope => [97, 100, 100, 45, 115, 99, 111, 112, 101]
  | .addSlice => [97, 100, 100, 45, 115, 108, 105, 99, 101]
  | .addSensor => [97, 100, 100, 45, 115, 101, 110, 115, 111, 114]
  | .findActuator => [102, 105, 110, 100, 45, 97, 99, 116, 117, 97, 116, 111, 114]
  | .findScope => [102, 105, 110, 100, 45, 115, 99, 111, 112, 101]
  | .findSlice => [102, 105, 110, 100, 45, 115, 108, 105, 99, 101]
  | .findSensor => [102, 105, 110, 100, 45, 115, 101, 110, 115, 111, 114]
  | .listen => [108, 105, 115, 116, 101, 110]
  | .listActuators => [108, 105, 115, 116, 45, 97, 99, 116, 117, 97, 116, 111, 114, 115]
  | .listScopes => [108, 105, 115, 116, 45, 115, 99, 111, 112, 101, 115]
  | .listSlices => [108, 105, 115, 116, 45, 115, 108, 105, 99, 101, 115]
  | .listSensors => [108, 105, 115, 116, 45, 115, 101, 110, 115, 111, 114, 115]
  | .sendEvent => [115, 101, 110, 100, 45, 101, 118, 101, 110, 116]
  | .removeScope => [114, 101, 109, 111, 118, 101, 45, 115, 99, 111, 112, 101]
  | .removeSlice => [114, 101, 109, 111, 118, 101, 45, 115, 108, 105, 99, 101]
  | .removeSensor => [114, 101, 109, 111, 118, 101, 45, 115, 101, 110, 115, 111, 114]
  | .run => [114, 117, 110]
  | .exit => [101, 120, 105, 116]
  | .tick => [116, 105, 99, 107]

/-- `commands` -/
def commands : List Command :=
  [.actuate, .addScope, .addSlice, .addSensor, .findActuator, .findScope, .findSlice,
   .findSensor, .listen, .listActuators, .listScopes, .listSlices, .listSensors, .sendEvent,
   .removeScope, .removeSlice, .removeSensor, .run, .exit, .tick]

/-- The function of a command, on the words behind it; `optind` is as the scan of the
global options left it. -/
def Command.fn (jansson : Jansson) (env : Env) (heap : StringHeap) (optind : Nat)
    (words : List NrmString) : Command → Except ToolsStop Asked
  | .actuate => cmdActuate words
  | .addScope => cmdAddScope jansson words
  | .addSlice => cmdNamed (.add .slice) words
  | .addSensor => cmdNamed (.add .sensor) words
  | .findActuator => cmdNamed (.find .actuator) words
  | .findScope => cmdNamed (.find .scope) words
  | .findSlice => cmdNamed (.find .slice) words
  | .findSensor => cmdNamed (.find .sensor) words
  | .listen => cmdListen words
  | .listActuators => .ok (.list .actuator)
  | .listScopes => .ok (.list .scope)
  | .listSlices => .ok (.list .slice)
  | .listSensors => .ok (.list .sensor)
  | .sendEvent => cmdSendEvent words
  | .removeScope => cmdRemoveScope optind words
  | .removeSlice => cmdRemoveSlice optind words
  | .removeSensor => cmdRemoveSensor optind words
  | .run => cmdRun env heap words
  | .exit => .ok .exit
  | .tick => .ok .tick

def connectName : NrmString := [99, 111, 110, 110, 101, 99, 116]

/-- The end of `main`, on the words that the global options leave; `clientCreate` is the
result of `nrm_client_create`. -/
def dispatch (jansson : Jansson) (clientCreate : Option NrmString → Int → Int → Int)
    (args : ToolsArgs F) (env : Env) (heap : StringHeap) (optind : Nat) : List NrmString → Except ToolsStop Asked
  | [] => exitFailure
  | name :: words =>
      if name = connectName then cmdConnect words
      else
        let err := clientCreate args.upstreamUri args.pubPort args.rpcPort
        if err ≠ 0 then .error (.returned err)
        else
          match commands.find? (fun command => command.name = name) with
          | none => exitFailure
          | some command => command.fn jansson env heap optind words

/-- `main`; `args` is what was on the stack. -/
def main (doubles : Doubles F) (jansson : Jansson)
    (clientCreate : Option NrmString → Int → Int → Int) (args : ToolsArgs F) (env : Env)
    (heap : StringHeap) (words : List NrmString) : Except ToolsStop Asked :=
  match toolsParseArgs doubles { args with flags := 0 } words with
  | .error (.returned _) => exitFailure
  | .error stop => .error stop
  | .ok (args, optind) =>
      if args.askHelp then .ok .help
      else if args.askVersion then .ok .version
      else dispatch jansson clientCreate args env heap optind (words.drop (optind - 1))

end LibNrm.Nrmc
