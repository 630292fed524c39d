import Mathlib.Data.List.Induction
import LibNrm.Data.Getopt
import LibNrm.Utils.Parsers

namespace LibNrm

open Data.Getopt

/-! `nrm_tools_parse_args` on top of the `getopt_long` of glibc.  All tools scan with a `+` in
front of the short options, so that a scan stops at the first word that is no option.  The
conversion of doubles is a parameter.
-/

inductive ToolsOption where
  | help
  | version
  | logLevel
  | quiet
  | verbose
  | uri
  | rpc
  | pub
  | freq
  | event
  | inherit
deriving DecidableEq, Repr

/-- The doubles of C, as far as the tools need them: `strtod` gives the value, `errno`
if it was zero before, and how far the end pointer is behind the start. -/
structure Doubles (F : Type) where
  one : F
  isZero : F → Bool
  strtod : NrmString → F × Int × Nat

/-- `nrm_parse_double` -/
def parseDouble (doubles : Doubles F) (str : NrmString) (p : F) : Int × F :=
  let (ret, errno, consumed) := doubles.strtod str
  if errno ≠ 0 then (-nrmEinval, p)
  else if doubles.isZero ret ∧ consumed = 0 then (-nrmEinval, p)
  else (0, ret)

/-- `nrm_tools_args_t`, without the name of the program. -/
structure ToolsArgs (F : Type) where
  flags : Nat
  upstreamUri : Option NrmString
  pubPort : Int
  rpcPort : Int
  logLevel : Int
  askHelp : Bool
  askVersion : Bool
  freq : F
  events : List NrmString
  inheritance : Bool

def flagFreq : Nat := 1
def flagEvent : Nat := 2
def flagInherit : Nat := 4

/-- `NRM_TOOLS_FLAGS_ISSET` -/
def flagsIsset (flags flag : Nat) : Bool := flags &&& flag != 0

/-- `common_shortopts`, behind `+:`. -/
def commonShortopts : List (Short UInt8 ToolsOption) :=
  [⟨118, .verbose, false⟩, ⟨104, .help, false⟩, ⟨113, .quiet, false⟩, ⟨86, .version, false⟩,
   ⟨108, .logLevel, true⟩, ⟨117, .uri, true⟩, ⟨114, .rpc, true⟩, ⟨112, .pub, true⟩]

/-- `common_longopts`: `help`, `version`, `log-level`, `quiet`, `verbose`, `uri`, `rpc`
and `pub`. -/
def commonLongopts : List (Long UInt8 ToolsOption) :=
  [⟨[104, 101, 108, 112], .help, false⟩,
   ⟨[118, 101, 114, 115, 105, 111, 110], .version, false⟩,
   ⟨[108, 111, 103, 45, 108, 101, 118, 101, 108], .logLevel, true⟩,
   ⟨[113, 117, 105, 101, 116], .quiet, false⟩,
   ⟨[118, 101, 114, 98, 111, 115, 101], .verbose, false⟩,
   ⟨[117, 114, 105], .uri, true⟩,
   ⟨[114, 112, 99], .rpc, true⟩,
   ⟨[112, 117, 98], .pub, true⟩]

def extraFor (flags flag : Nat) (extra : A) : List A := if flagsIsset flags flag then [extra] else []

/-- `full_shortopts` -/
def fullShortopts (flags : Nat) : List (Short UInt8 ToolsOption) :=
  commonShortopts ++ extraFor flags flagFreq ⟨102, .freq, true⟩ ++
    extraFor flags flagEvent ⟨101, .event, true⟩ ++ extraFor flags flagInherit ⟨105, .inherit, false⟩

/-- `full_longopts`, with `freq`, `event` and `inherit` at the end. -/
def fullLongopts (flags : Nat) : List (Long UInt8 ToolsOption) :=
  commonLongopts ++ extraFor flags flagFreq ⟨[102, 114, 101, 113], .freq, true⟩ ++
    extraFor flags flagEvent ⟨[101, 118, 101, 110, 116], .event, true⟩ ++
    extraFor flags flagInherit ⟨[105, 110, 104, 101, 114, 105, 116], .inherit, false⟩

theorem fullShortopts_plain (flags : Nat) : ∀ short ∈ fullShortopts flags, short.char ≠ 45 := by
  intro short member
  simp only [fullShortopts, List.mem_append, extraFor, List.mem_ite_nil_right,
    List.mem_singleton] at member
  obtain ((common | ⟨-, rfl⟩) | ⟨-, rfl⟩) | ⟨-, rfl⟩ := member
  · revert short
    decide
  · decide
  · decide
  · decide

def toolsOptions (flags : Nat) : Options UInt8 ToolsOption where
  dash := 45
  equals := 61
  shorts := fullShortopts flags
  longs := fullLongopts flags
  plain := fullShortopts_plain flags

/-- How a parse ends early: with a return code, in a fault, or with `log_level++` at
`INT_MAX`. -/
inductive ToolsStop where
  | returned (err : Int)
  | fault (fault : Fault)
  | overflow
deriving DecidableEq

/-- `tcp://127.0.0.1` -/
def defaultUpstreamUri : NrmString := [116, 99, 112, 58, 47, 47, 49, 50, 55, 46, 48, 46, 48, 46, 49]
def defaultUpstreamPubPort : Int := 2345
def defaultUpstreamRpcPort : Int := 3456

def logQuiet : Int := 0
def logNormal : Int := 3

/-- What is set before the scan.  The fields of an extra option are only set if its
flag is. -/
def toolsDefaults (doubles : Doubles F) (args : ToolsArgs F) : ToolsArgs F where
  flags := args.flags
  upstreamUri := none
  pubPort := defaultUpstreamPubPort
  rpcPort := defaultUpstreamRpcPort
  logLevel := logNormal
  askHelp := false
  askVersion := false
  freq := if flagsIsset args.flags flagFreq then doubles.one else args.freq
  events := if flagsIsset args.flags flagEvent then [] else args.events
  inheritance := if flagsIsset args.flags flagInherit then false else args.inheritance

def withOptarg (optarg : Option NrmString) (next : NrmString → Except ToolsStop A) :
    Except ToolsStop A :=
  match optarg with
  | none => .error (.fault .nullDereference)
  | some optarg => next optarg

def parsedInto (parsed : Int × A) (set : A → B) : Except ToolsStop B :=
  if parsed.1 ≠ 0 then .error (.returned parsed.1) else .ok (set parsed.2)

def assertFlag (flags flag : Nat) (next : Except ToolsStop A) : Except ToolsStop A :=
  if flagsIsset flags flag then next else .error (.fault .assertionFailed)

/-- The `switch` of the loop. -/
def toolsAct (doubles : Doubles F) (args : ToolsArgs F) (option : ToolsOption)
    (optarg : Option NrmString) : Except ToolsStop (ToolsArgs F) :=
  match option with
  | .help => .ok { args with askHelp := true }
  | .version => .ok { args with askVersion := true }
  | .pub => withOptarg optarg fun optarg =>
      parsedInto (parseUint optarg args.pubPort) fun port => { args with pubPort := port }
  | .rpc => withOptarg optarg fun optarg =>
      parsedInto (parseUint optarg args.rpcPort) fun port => { args with rpcPort := port }
  | .uri => withOptarg optarg fun optarg =>
      .ok { args with upstreamUri := some (stringFromchar optarg) }
  | .verbose =>
      if args.logLevel = 2 ^ 31 - 1 then .error .overflow
      else .ok { args with logLevel := args.logLevel + 1 }
  | .quiet => .ok { args with logLevel := logQuiet }
  | .logLevel => withOptarg optarg fun optarg =>
      parsedInto (parseInt optarg args.logLevel) fun level => { args with logLevel := level }
  | .freq => assertFlag args.flags flagFreq <| withOptarg optarg fun optarg =>
      parsedInto (parseDouble doubles optarg args.freq) fun freq => { args with freq := freq }
  | .event => assertFlag args.flags flagEvent <| withOptarg optarg fun optarg =>
      .ok { args with events := args.events ++ [stringFromchar optarg] }
  | .inherit => assertFlag args.flags flagInherit <| .ok { args with inheritance := true }

/-- `nrm_tools_parse_args` on the words behind the name of the program, with the index
it returns. -/
def toolsParseArgs (doubles : Doubles F) (args : ToolsArgs F) (words : List NrmString) :
    Except ToolsStop (ToolsArgs F × Nat) :=
  match scan (toolsOptions args.flags) (toolsAct doubles) (.returned (-nrmEinval))
      (.returned (-nrmEinval)) (toolsDefaults doubles args) ⟨[], words⟩ with
  | .error stop => .error stop
  | .ok (args, rest) =>
      .ok ({ args with upstreamUri := some (args.upstreamUri.getD defaultUpstreamUri) },
        1 + words.length - rest.length)

def asked (option : ToolsOption) (tokens : List (ToolsOption × Option NrmString)) : Bool :=
  tokens.any fun token => token.1 = option

/-- The last argument counts. -/
def lastGiven (option : ToolsOption) (read : NrmString → A) (default : A)
    (tokens : List (ToolsOption × Option NrmString)) : A :=
  ((given option tokens).getLast?.map read).getD default

def levelAfter (level : Int) : ToolsOption × Option NrmString → Int
  | (.quiet, _) => logQuiet
  | (.verbose, _) => level + 1
  | (.logLevel, some optarg) => (parseInt optarg 0).2
  | _ => level

def levelOf (tokens : List (ToolsOption × Option NrmString)) : Int := tokens.foldl levelAfter logNormal

def toolsMeaning (doubles : Doubles F) (args : ToolsArgs F)
    (tokens : List (ToolsOption × Option NrmString)) : ToolsArgs F where
  flags := args.flags
  upstreamUri := some (lastGiven .uri stringFromchar defaultUpstreamUri tokens)
  pubPort := lastGiven .pub (fun optarg => (parseUint optarg 0).2) defaultUpstreamPubPort tokens
  rpcPort := lastGiven .rpc (fun optarg => (parseUint optarg 0).2) defaultUpstreamRpcPort tokens
  logLevel := levelOf tokens
  askHelp := asked .help tokens
  askVersion := asked .version tokens
  freq :=
    if flagsIsset args.flags flagFreq then
      lastGiven .freq (fun optarg => (parseDouble doubles optarg doubles.one).2) doubles.one tokens
    else args.freq
  events :=
    if flagsIsset args.flags flagEvent then (given .event tokens).map stringFromchar else args.events
  inheritance :=
    if flagsIsset args.flags flagInherit then asked .inherit tokens else args.inheritance

/-- What an option has to meet behind the ones before it: its number is one, and no
`-v` comes at `INT_MAX`. -/
def ReadableAt (doubles : Doubles F) (before : List (ToolsOption × Option NrmString)) :
    ToolsOption × Option NrmString → Prop
  | (.pub, some optarg) | (.rpc, some optarg) => (parseUint optarg 0).1 = 0
  | (.logLevel, some optarg) => (parseInt optarg 0).1 = 0
  | (.freq, some optarg) => (parseDouble doubles optarg doubles.one).1 = 0
  | (.verbose, _) => levelOf before ≠ 2 ^ 31 - 1
  | _ => True

def Readable (doubles : Doubles F) (tokens : List (ToolsOption × Option NrmString)) : Prop :=
  ∀ front token back, tokens = front ++ token :: back → ReadableAt doubles front token

section Snoc

variable {tokens : List (ToolsOption × Option NrmString)} {token : ToolsOption × Option NrmString}

theorem asked_snoc (option : ToolsOption) :
    asked option (tokens ++ [token]) = (asked option tokens || decide (token.1 = option)) := by
  simp [asked]

theorem levelOf_snoc : levelOf (tokens ++ [token]) = levelAfter (levelOf tokens) token := by
  simp [levelOf]

theorem lastGiven_same {option : ToolsOption} {optarg : NrmString} (read : NrmString → A)
    (default : A) :
    lastGiven option read default (tokens ++ [(option, some optarg)]) = read optarg := by
  simp [lastGiven, given_snoc]

theorem lastGiven_other {option : ToolsOption} (other : token.1 ≠ option) (read : NrmString → A)
    (default : A) :
    lastGiven option read default (tokens ++ [token]) = lastGiven option read default tokens := by
  simp [lastGiven, given_snoc, other]

theorem readable_snoc (doubles : Doubles F) :
    Readable doubles (tokens ++ [token]) ↔
      Readable doubles tokens ∧ ReadableAt doubles tokens token := by
  constructor
  · intro readable
    constructor
    · rintro front other back rfl
      exact readable front other (back ++ [token]) (by simp)
    · exact readable tokens token [] rfl
  · rintro ⟨readable, here⟩ front other back same
    rcases List.eq_nil_or_concat back with rfl | ⟨back, last, rfl⟩
    · obtain ⟨rfl, ⟨⟩⟩ := List.append_inj' same rfl
      exact here
    · rw [List.concat_eq_append, ← List.cons_append, ← List.append_assoc] at same
      obtain ⟨rfl, -⟩ := List.append_inj' same rfl
      exact readable front other back rfl

end Snoc

theorem parseLong_indep (lower : Int) (str : NrmString) (p q : Int) :
    (parseLong lower str p).1 = (parseLong lower str q).1 ∧
      ((parseLong lower str p).1 = 0 → (parseLong lower str p).2 = (parseLong lower str q).2) := by
  unfold parseLong
  simp only
  split
  · simp [nrmEinval]
  · split
    · simp [nrmEdom]
    · simp

theorem parseDouble_indep (doubles : Doubles F) (str : NrmString) (p q : F) :
    (parseDouble doubles str p).1 = (parseDouble doubles str q).1 ∧
      ((parseDouble doubles str p).1 = 0 →
        (parseDouble doubles str p).2 = (parseDouble doubles str q).2) := by
  unfold parseDouble
  simp only
  split
  · simp [nrmEinval]
  · split
    · simp [nrmEinval]
    · simp

theorem parsedInto_eq_ok_iff {parsed other : Int × A} {set : A → B} {result : B}
    (code : parsed.1 = other.1) (value : parsed.1 = 0 → parsed.2 = other.2) :
    parsedInto parsed set = .ok result ↔ other.1 = 0 ∧ result = set other.2 := by
  unfold parsedInto
  split
  · rename_i failed
    simp [← code, failed]
  · rename_i succeeded
    have zero : parsed.1 = 0 := not_not.mp succeeded
    rw [value zero, ← code]
    simp [zero, eq_comm]

def ToolsOption.takesArg : ToolsOption → Bool
  | .logLevel | .uri | .rpc | .pub | .freq | .event => true
  | _ => false

def ToolsOption.needs : ToolsOption → Option Nat
  | .freq => some flagFreq
  | .event => some flagEvent
  | .inherit => some flagInherit
  | _ => none

theorem offers_toolsOptions {flags : Nat} {option : ToolsOption} {optarg : Option NrmString}
    (offers : (toolsOptions flags).Offers option optarg) :
    option.takesArg = optarg.isSome ∧ ∀ flag ∈ option.needs, flagsIsset flags flag = true := by
  have commonShort : ∀ short ∈ commonShortopts,
      short.token.takesArg = short.hasArg ∧ short.token.needs = none := by
    decide
  have commonLong : ∀ long ∈ commonLongopts,
      long.token.takesArg = long.hasArg ∧ long.token.needs = none := by
    decide
  obtain ⟨short, member, rfl, takes⟩ | ⟨long, member, rfl, takes⟩ := offers
  · rw [← takes]
    simp only [toolsOptions, fullShortopts, List.mem_append, extraFor, List.mem_ite_nil_right,
      List.mem_singleton] at member
    obtain ((common | ⟨set, rfl⟩) | ⟨set, rfl⟩) | ⟨set, rfl⟩ := member
    · obtain ⟨same, none⟩ := commonShort short common
      simp [same, none]
    all_goals exact ⟨rfl, by simpa [ToolsOption.needs] using set⟩
  · rw [← takes]
    simp only [toolsOptions, fullLongopts, List.mem_append, extraFor, List.mem_ite_nil_right,
      List.mem_singleton] at member
    obtain ((common | ⟨set, rfl⟩) | ⟨set, rfl⟩) | ⟨set, rfl⟩ := member
    · obtain ⟨same, none⟩ := commonLong long common
      simp [same, none]
    all_goals exact ⟨rfl, by simpa [ToolsOption.needs] using set⟩

def meaningSofar (doubles : Doubles F) (args : ToolsArgs F)
    (tokens : List (ToolsOption × Option NrmString)) : ToolsArgs F :=
  { toolsMeaning doubles args tokens with
    upstreamUri := (given .uri tokens).getLast?.map stringFromchar }

section Steps

variable {doubles : Doubles F} {args : ToolsArgs F} {tokens : List (ToolsOption × Option NrmString)}
  {option : ToolsOption} {optarg : Option NrmString}

/-- What an option sets, once its argument is read. -/
def toolsSet (doubles : Doubles F) (args : ToolsArgs F) :
    ToolsOption × Option NrmString → ToolsArgs F
  | (.help, _) => { args with askHelp := true }
  | (.version, _) => { args with askVersion := true }
  | (.pub, some optarg) => { args with pubPort := (parseUint optarg 0).2 }
  | (.rpc, some optarg) => { args with rpcPort := (parseUint optarg 0).2 }
  | (.uri, some optarg) => { args with upstreamUri := some (stringFromchar optarg) }
  | (.freq, some optarg) => { args with freq := (parseDouble doubles optarg doubles.one).2 }
  | (.event, some optarg) => { args with events := args.events ++ [stringFromchar optarg] }
  | (.inherit, _) => { args with inheritance := true }
  | token => { args with logLevel := levelAfter args.logLevel token }

theorem toolsSet_meaningSofar (offers : (toolsOptions args.flags).Offers option optarg) :
    toolsSet doubles (meaningSofar doubles args tokens) (option, optarg) =
      meaningSofar doubles args (tokens ++ [(option, optarg)]) := by
  obtain ⟨takes, needs⟩ := offers_toolsOptions offers
  cases option <;> cases optarg <;>
    simp [ToolsOption.takesArg, ToolsOption.needs] at takes needs <;>
    simp [toolsSet, meaningSofar, toolsMeaning, given_snoc, asked_snoc, levelOf_snoc, levelAfter,
      lastGiven_same, lastGiven_other, needs]

theorem ok_eq_ok_iff {value next : A} : (Except.ok value : Except B A) = .ok next ↔ next = value := by
  rw [Except.ok.injEq, eq_comm]

theorem toolsAct_iff (offers : (toolsOptions args.flags).Offers option optarg)
    (level : args.logLevel = levelOf tokens) (next : ToolsArgs F) :
    toolsAct doubles args option optarg = .ok next ↔
      ReadableAt doubles tokens (option, optarg) ∧
        next = toolsSet doubles args (option, optarg) := by
  obtain ⟨takes, needs⟩ := offers_toolsOptions offers
  cases option with
  | help | version | quiet =>
      simp only [toolsAct, ReadableAt, toolsSet, levelAfter, true_and, ok_eq_ok_iff]
  | verbose =>
      simp only [toolsAct, ReadableAt, toolsSet, levelAfter, ← level]
      split
      · rename_i largest
        simp [largest]
      · rename_i room
        rw [ok_eq_ok_iff, and_iff_right room]
  | logLevel | rpc | pub =>
      obtain ⟨value, rfl⟩ := Option.isSome_iff_exists.mp takes.symm
      simp only [toolsAct, withOptarg, ReadableAt, toolsSet, levelAfter]
      exact parsedInto_eq_ok_iff (parseLong_indep _ _ _ _).1 (parseLong_indep _ _ _ _).2
  | uri =>
      obtain ⟨value, rfl⟩ := Option.isSome_iff_exists.mp takes.symm
      simp only [toolsAct, withOptarg, ReadableAt, toolsSet, true_and, ok_eq_ok_iff]
  | freq =>
      obtain ⟨value, rfl⟩ := Option.isSome_iff_exists.mp takes.symm
      rw [toolsAct, assertFlag, if_pos (needs flagFreq rfl)]
      simp only [withOptarg, ReadableAt, toolsSet]
      exact parsedInto_eq_ok_iff (parseDouble_indep _ _ _ _).1 (parseDouble_indep _ _ _ _).2
  | event =>
      obtain ⟨value, rfl⟩ := Option.isSome_iff_exists.mp takes.symm
      rw [toolsAct, assertFlag, if_pos (needs flagEvent rfl)]
      simp only [withOptarg, ReadableAt, toolsSet, true_and, ok_eq_ok_iff]
  | inherit =>
      rw [toolsAct, assertFlag, if_pos (needs flagInherit rfl)]
      simp only [ReadableAt, toolsSet, true_and, ok_eq_ok_iff]

theorem meaningSofar_nil : meaningSofar doubles args [] = toolsDefaults doubles args := by
  simp [meaningSofar, toolsMeaning, toolsDefaults, lastGiven, given, asked, levelOf]

theorem toolsAct_meaningSofar_iff (offers : (toolsOptions args.flags).Offers option optarg)
    (next : ToolsArgs F) :
    toolsAct doubles (meaningSofar doubles args tokens) option optarg = .ok next ↔
      ReadableAt doubles tokens (option, optarg) ∧
        next = meaningSofar doubles args (tokens ++ [(option, optarg)]) := by
  rw [← toolsSet_meaningSofar offers]
  exact @toolsAct_iff F doubles (meaningSofar doubles args tokens) tokens option optarg offers rfl next

theorem perform_toolsAct_iff
    (offered : ∀ token ∈ tokens, (toolsOptions args.flags).Offers token.1 token.2)
    (final : ToolsArgs F) :
    perform (toolsAct doubles) (toolsDefaults doubles args) tokens = .ok final ↔
      Readable doubles tokens ∧ final = meaningSofar doubles args tokens := by
  induction tokens using List.reverseRecOn generalizing final with
  | nil =>
      have readable : Readable doubles [] := fun front token back impossible => by simp at impossible
      rw [meaningSofar_nil, and_iff_right readable]
      exact ok_eq_ok_iff
  | append_singleton tokens token ih =>
      obtain ⟨option, optarg⟩ := token
      have before := ih fun token member => offered token (List.mem_append_left _ member)
      have offers : (toolsOptions args.flags).Offers option optarg := offered (option, optarg) (by simp)
      rw [perform_snoc, readable_snoc]
      constructor
      · rintro ⟨next, performed, acted⟩
        obtain ⟨readable, rfl⟩ := (before next).mp performed
        obtain ⟨here, same⟩ := (toolsAct_meaningSofar_iff offers final).mp acted
        exact ⟨⟨readable, here⟩, same⟩
      · rintro ⟨⟨readable, here⟩, rfl⟩
        refine ⟨_, (before _).mpr ⟨readable, rfl⟩, ?_⟩
        exact (toolsAct_meaningSofar_iff offers _).mpr ⟨here, rfl⟩

def ParserCode (err : Int) : Prop := err = 0 ∨ err = -nrmEinval ∨ err = -nrmEdom

theorem parserCode_parseLong (lower : Int) (str : NrmString) (p : Int) :
    ParserCode (parseLong lower str p).1 := by
  unfold parseLong
  simp only
  split
  · exact .inr (.inl rfl)
  · split
    · exact .inr (.inr rfl)
    · exact .inl rfl

theorem parserCode_parseDouble (str : NrmString) (p : F) :
    ParserCode (parseDouble doubles str p).1 := by
  unfold parseDouble
  simp only
  split
  · exact .inr (.inl rfl)
  · split
    · exact .inr (.inl rfl)
    · exact .inl rfl

/-- How a parse can end early. -/
def Reported (stop : ToolsStop) : Prop :=
  stop = .returned (-nrmEinval) ∨ stop = .returned (-nrmEdom) ∨ stop = .overflow

theorem reported_of_parsedInto {parsed : Int × A} {set : A → B} {stop : ToolsStop}
    (code : ParserCode parsed.1) (failed : parsedInto parsed set = .error stop) : Reported stop := by
  unfold parsedInto at failed
  split at failed
  · rename_i nonzero
    cases failed
    obtain zero | invalid | domain := code
    · exact absurd zero nonzero
    · exact .inl (congrArg _ invalid)
    · exact .inr (.inl (congrArg _ domain))
  · cases failed

theorem reported_of_toolsAct {stop : ToolsStop}
    (offers : (toolsOptions args.flags).Offers option optarg)
    (failed : toolsAct doubles args option optarg = .error stop) : Reported stop := by
  obtain ⟨takes, needs⟩ := offers_toolsOptions offers
  cases option with
  | help | version | quiet => cases failed
  | verbose =>
      rw [toolsAct] at failed
      split at failed
      · cases failed
        exact .inr (.inr rfl)
      · cases failed
  | logLevel | rpc | pub =>
      obtain ⟨value, rfl⟩ := Option.isSome_iff_exists.mp takes.symm
      simp only [toolsAct, withOptarg] at failed
      exact reported_of_parsedInto (parserCode_parseLong _ _ _) failed
  | uri =>
      obtain ⟨value, rfl⟩ := Option.isSome_iff_exists.mp takes.symm
      cases failed
  | freq =>
      obtain ⟨value, rfl⟩ := Option.isSome_iff_exists.mp takes.symm
      simp only [toolsAct, assertFlag, if_pos (needs flagFreq rfl), withOptarg] at failed
      exact reported_of_parsedInto (parserCode_parseDouble _ _) failed
  | event =>
      obtain ⟨value, rfl⟩ := Option.isSome_iff_exists.mp takes.symm
      rw [toolsAct, assertFlag, if_pos (needs flagEvent rfl)] at failed
      cases failed
  | inherit =>
      rw [toolsAct, assertFlag, if_pos (needs flagInherit rfl)] at failed
      cases failed

theorem toolsParseArgs_eq_error_iff {words : List NrmString} {stop : ToolsStop} :
    toolsParseArgs doubles args words = .error stop ↔
      ∃ tokens last, (toolsOptions args.flags).Begins ⟨[], words⟩ tokens last ∧
        Readable doubles tokens ∧
        StopsAt (toolsAct doubles) (.returned (-nrmEinval)) (.returned (-nrmEinval))
          (meaningSofar doubles args tokens) ((toolsOptions args.flags).next last).1 stop := by
  have scanned : toolsParseArgs doubles args words = .error stop ↔
      scan (toolsOptions args.flags) (toolsAct doubles) (.returned (-nrmEinval))
        (.returned (-nrmEinval)) (toolsDefaults doubles args) ⟨[], words⟩ = .error stop := by
    unfold toolsParseArgs
    split
    · rename_i failure failed
      simp [failed]
    · rename_i final rest succeeded
      simp [succeeded]
  rw [scanned, scan_eq_error_iff]
  constructor
  · rintro ⟨tokens, last, final, begins, performed, stops⟩
    obtain ⟨readable, rfl⟩ := (perform_toolsAct_iff begins.offers final).mp performed
    exact ⟨tokens, last, begins, readable, stops⟩
  · rintro ⟨tokens, last, begins, readable, stops⟩
    exact ⟨tokens, last, _, begins, (perform_toolsAct_iff begins.offers _).mpr ⟨readable, rfl⟩, stops⟩

theorem reported_of_toolsParseArgs {words : List NrmString} {stop : ToolsStop}
    (failed : toolsParseArgs doubles args words = .error stop) : Reported stop := by
  obtain ⟨tokens, last, -, -, stops⟩ := toolsParseArgs_eq_error_iff.mp failed
  obtain rfl | rfl | ⟨option, optarg, called, acted⟩ := stops.outcome
  · exact .inl rfl
  · exact .inl rfl
  · have offers : (toolsOptions (meaningSofar doubles args tokens).flags).Offers option optarg :=
      offers_of_outcome called
    exact reported_of_toolsAct offers acted

theorem toolsParseArgs_iff {words : List NrmString} {after : ToolsArgs F} {index : Nat} :
    toolsParseArgs doubles args words = .ok (after, index) ↔
      ∃ front tail rest tokens, words = front ++ tail ∧
        (toolsOptions args.flags).Written front tokens ∧ (toolsOptions args.flags).Ends tail rest ∧
        Readable doubles tokens ∧ after = toolsMeaning doubles args tokens ∧
        index = 1 + words.length - rest.length := by
  unfold toolsParseArgs
  constructor
  · intro parsed
    split at parsed
    · cases parsed
    · rename_i final rest scanned
      cases parsed
      obtain ⟨front, tail, tokens, rfl, written, ends, performed⟩ := (scan_eq_ok_iff ..).mp scanned
      obtain ⟨readable, rfl⟩ := (perform_toolsAct_iff written.offers final).mp performed
      exact ⟨front, tail, rest, tokens, rfl, written, ends, readable, rfl, rfl⟩
  · rintro ⟨front, tail, rest, tokens, rfl, written, ends, readable, rfl, rfl⟩
    have performed := (perform_toolsAct_iff written.offers _).mpr ⟨readable, rfl⟩
    rw [(scan_eq_ok_iff ..).mpr ⟨front, tail, tokens, rfl, written, ends, performed⟩]
    rfl

end Steps

/-- `nrm_tools_parse_args` accepts a command line exactly if its words are options of
the tool as `getopt_long` lets them be written, then an end, and every number can be read.
The fields then hold what the options mean, however they were written, and the result is
the index of the first word that is left.  On all other lines it returns the code of an
error, unless a `-v` comes at `INT_MAX`. -/
theorem tools_parse_args_accepts (doubles : Doubles F) (args : ToolsArgs F) (words : List NrmString) :
    (∀ after index, toolsParseArgs doubles args words = .ok (after, index) ↔
      ∃ front tail rest tokens, words = front ++ tail ∧
        (toolsOptions args.flags).Written front tokens ∧ (toolsOptions args.flags).Ends tail rest ∧
        Readable doubles tokens ∧ after = toolsMeaning doubles args tokens ∧
        index = 1 + words.length - rest.length) ∧
    (∀ stop, toolsParseArgs doubles args words = .error stop → Reported stop) := by
  exact ⟨fun after index => toolsParseArgs_iff, fun stop => reported_of_toolsParseArgs⟩

/-- Without a decimal point there is no number here. -/
def sampleDoubles : Doubles Nat := ⟨1, fun value => value = 0, fun _ => (0, 0, 0)⟩

def sampleArgs : ToolsArgs Nat := ⟨flagEvent, none, 0, 0, 0, false, false, 0, [], false⟩

theorem readable_nil (doubles : Doubles F) : Readable doubles [] :=
  fun _ _ _ impossible => by simp at impossible

/-- `-vp 99 --eve=x -- run` -/
theorem tools_parse_args_accepts_sample :
    ∃ after, toolsParseArgs sampleDoubles sampleArgs
        [[45, 118, 112], [57, 57], [45, 45, 101, 118, 101, 61, 120], [45, 45], [114, 117, 110]] =
          .ok (after, 5) ∧
      after.logLevel = 4 ∧ after.pubPort = 99 ∧ after.rpcPort = 3456 ∧ after.events = [[120]] ∧
      after.upstreamUri = some defaultUpstreamUri := by
  have verbose : Readable sampleDoubles ([] ++ [(.verbose, none)]) :=
    (readable_snoc _).mpr ⟨readable_nil _, show levelOf [] ≠ 2 ^ 31 - 1 by decide⟩
  have pub : Readable sampleDoubles ([(.verbose, none)] ++ [(.pub, some [57, 57])]) :=
    (readable_snoc _).mpr ⟨verbose, show (parseUint [57, 57] 0).1 = 0 by decide⟩
  have readable : Readable sampleDoubles
      ([(.verbose, none), (.pub, some [57, 57])] ++ [(.event, some [120])]) :=
    (readable_snoc _).mpr ⟨pub, trivial⟩
  have shortV : (toolsOptions 2).shortFor 118 = some ⟨118, .verbose, false⟩ := rfl
  have shortP : (toolsOptions 2).shortFor 112 = some ⟨112, .pub, true⟩ := rfl
  have longE : (toolsOptions 2).longFor [101, 118, 101] =
      some ⟨[101, 118, 101, 110, 116], .event, true⟩ := rfl
  have ports : (toolsOptions 2).Group [[45, 118, 112], [57, 57]]
      [(.verbose, none), (.pub, some [57, 57])] := .short (.flag shortV rfl (.separate shortP rfl))
  have event : (toolsOptions 2).Group [[45, 45, 101, 118, 101, 61, 120]] [(.event, some [120])] :=
    .longEquals (show (61 : UInt8) ∉ [101, 118, 101] by decide) longE rfl
  refine ⟨_, ((tools_parse_args_accepts sampleDoubles sampleArgs _).1 _ 5).mpr
    ⟨[[45, 118, 112], [57, 57], [45, 45, 101, 118, 101, 61, 120]], [[45, 45], [114, 117, 110]],
      [[114, 117, 110]], _, rfl, .more ports (.more event .none), .terminator, readable, rfl, rfl⟩, ?_⟩
  decide

end LibNrm
