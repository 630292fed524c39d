import LibNrm.Tools.Libraries

namespace LibNrm.Nrmc

open Data.Getopt

/-- The words of the global options, with or without a `--` behind them. -/
def Globals (doubles : Doubles F) (before : List NrmString)
    (tokens : List (ToolsOption × Option NrmString)) : Prop :=
  ∃ front, (toolsOptions 0).Written front tokens ∧ Readable doubles tokens ∧
    (before = front ∨ before = front ++ [[45, 45]])

/-- Neither the help nor the version is asked for. -/
def Plain (tokens : List (ToolsOption × Option NrmString)) : Prop :=
  asked .help tokens = false ∧ asked .version tokens = false

section Lines

variable {doubles : Doubles F} {jansson : Jansson}
  {clientCreate : Option NrmString → Int → Int → Int} {args : ToolsArgs F} {env : Env} {heap : StringHeap} {words before rest : List NrmString}
  {tokens : List (ToolsOption × Option NrmString)}

theorem parse_of_globals (globals : Globals doubles before tokens) {name : NrmString}
    (operand : (toolsOptions 0).Operand name) :
    toolsParseArgs doubles { args with flags := 0 } (before ++ name :: rest) =
      .ok (toolsMeaning doubles { args with flags := 0 } tokens, 1 + before.length) := by
  obtain ⟨front, written, readable, plain⟩ := globals
  have index : 1 + before.length = 1 + (before ++ name :: rest).length - (name :: rest).length := by
    rw [List.length_append]
    omega
  apply toolsParseArgs_iff.mpr
  obtain rfl | rfl := plain
  · exact ⟨before, name :: rest, name :: rest, tokens, rfl, written, .operand operand, readable, rfl,
      index⟩
  · exact ⟨front, [45, 45] :: name :: rest, name :: rest, tokens, by simp, written, .terminator,
      readable, rfl, index⟩

theorem globals_of_parse {after : ToolsArgs F} {index : Nat}
    (parsed : toolsParseArgs doubles { args with flags := 0 } words = .ok (after, index)) :
    ∃ before tokens left, words = before ++ left ∧ Globals doubles before tokens ∧
      after = toolsMeaning doubles { args with flags := 0 } tokens ∧ index = 1 + before.length := by
  obtain ⟨front, tail, left, tokens, rfl, written, ends, readable, rfl, rfl⟩ :=
    toolsParseArgs_iff.mp parsed
  cases ends with
  | empty => exact ⟨front, tokens, [], by simp, ⟨front, written, readable, .inl rfl⟩, rfl, by simp⟩
  | terminator =>
      refine ⟨front ++ [[45, 45]], tokens, left, by simp [toolsOptions],
        ⟨front, written, readable, .inr rfl⟩, rfl, ?_⟩
      simp only [List.length_append, List.length_cons, List.length_nil]
      omega
  | @operand word others operand =>
      refine ⟨front, tokens, word :: others, rfl, ⟨front, written, readable, .inl rfl⟩, rfl, ?_⟩
      rw [List.length_append]
      omega

theorem main_of_globals (globals : Globals doubles before tokens) (plain : Plain tokens)
    {name : NrmString} (operand : (toolsOptions 0).Operand name) :
    main doubles jansson clientCreate args env heap (before ++ name :: rest) =
      dispatch jansson clientCreate (toolsMeaning doubles { args with flags := 0 } tokens) env heap
        (1 + before.length) (name :: rest) := by
  rw [main, parse_of_globals globals operand]
  simp only [toolsMeaning, plain.1, plain.2, Bool.false_eq_true, if_false]
  rw [Nat.add_sub_cancel_left, List.drop_left]

theorem main_cases (result : Except ToolsStop Asked)
    (ran : main doubles jansson clientCreate args env heap words = result) :
    result = exitFailure ∨ result = .error .overflow ∨ result = .ok .help ∨ result = .ok .version ∨
      ∃ before tokens left, words = before ++ left ∧ Globals doubles before tokens ∧ Plain tokens ∧
        result = dispatch jansson clientCreate (toolsMeaning doubles { args with flags := 0 } tokens) env heap
          (1 + before.length) left := by
  unfold main at ran
  split at ran
  · exact .inl ran.symm
  · rename_i stop unreported failed
    obtain rfl | rfl | rfl := reported_of_toolsParseArgs failed
    · exact absurd rfl (unreported _)
    · exact absurd rfl (unreported _)
    · exact .inr (.inl ran.symm)
  · rename_i after index parsed
    obtain ⟨before, tokens, left, rfl, globals, rfl, rfl⟩ := globals_of_parse parsed
    split at ran
    · exact .inr (.inr (.inl ran.symm))
    · rename_i noHelp
      split at ran
      · exact .inr (.inr (.inr (.inl ran.symm)))
      · rename_i noVersion
        rw [Nat.add_sub_cancel_left, List.drop_left] at ran
        exact .inr (.inr (.inr (.inr ⟨before, tokens, left, rfl, globals,
          ⟨by simpa [toolsMeaning] using noHelp, by simpa [toolsMeaning] using noVersion⟩,
          ran.symm⟩)))

theorem operand_of_head {name : NrmString} (head : name.head? ≠ some 45) :
    (toolsOptions 0).Operand name := by
  rintro c more rfl
  exact head rfl

theorem Command.operand (command : Command) : (toolsOptions 0).Operand command.name := by
  apply operand_of_head
  cases command <;> decide

theorem find_command (command : Command) :
    commands.find? (fun other => other.name = command.name) = some command := by
  cases command <;> decide

theorem Command.name_ne_connectName (command : Command) : command.name ≠ connectName := by
  cases command <;> decide

theorem dispatch_command (command : Command) (optind : Nat)
    (created : clientCreate args.upstreamUri args.pubPort args.rpcPort = 0) :
    dispatch jansson clientCreate args env heap optind (command.name :: rest) =
      command.fn jansson env heap optind rest := by
  simp only [dispatch, if_neg command.name_ne_connectName, created, find_command, ne_eq,
    not_true_eq_false, if_false]

theorem dispatch_cases {optind : Nat} {left : List NrmString} {result : Except ToolsStop Asked}
    (ran : dispatch jansson clientCreate args env heap optind left = result) :
    (∃ status, result = .error (.returned status)) ∨
    (∃ rest, left = connectName :: rest ∧ result = cmdConnect rest) ∨
    ∃ command rest, left = Command.name command :: rest ∧
      clientCreate args.upstreamUri args.pubPort args.rpcPort = 0 ∧
      result = command.fn jansson env heap optind rest := by
  cases left with
  | nil => exact .inl ⟨1, ran.symm⟩
  | cons name rest =>
      simp only [dispatch] at ran
      split at ran
      · rename_i connects
        exact .inr (.inl ⟨rest, by rw [connects], ran.symm⟩)
      · split at ran
        · exact .inl ⟨_, ran.symm⟩
        · rename_i created
          split at ran
          · exact .inl ⟨1, ran.symm⟩
          · rename_i command found
            have named : command.name = name := by simpa using List.find?_some found
            exact .inr (.inr ⟨command, rest, by rw [named], not_not.mp created, ran.symm⟩)

theorem cmdConnect_cases (words : List NrmString) :
    cmdConnect words = exitFailure ∨ (∃ retries, cmdConnect words = .ok (.connect retries)) ∨
      ∃ word, words = [word] ∧ (parseUint word 5).1 ≠ 0 ∧
        cmdConnect words = .error (.fault .assertionFailed) := by
  unfold cmdConnect
  split
  · exact .inl rfl
  · split
    · rename_i word small
      simp only
      split
      · exact .inr (.inl ⟨_, rfl⟩)
      · rename_i unread
        exact .inr (.inr ⟨word, rfl, unread, rfl⟩)
    · exact .inr (.inl ⟨5, rfl⟩)

/-- What a command that removes looks for, and at which of its words. -/
def Command.removal : Command → Option (TargetType × Nat)
  | .removeScope => some (.scope, 0)
  | .removeSensor => some (.sensor, 0)
  | .removeSlice => some (.slice, 1)
  | _ => none

theorem fn_of_removal {command : Command} {type : TargetType} {position : Nat}
    (removes : command.removal = some (type, position)) (optind : Nat) :
    command.fn jansson env heap optind rest = cmdRemove type position optind rest := by
  cases command <;> cases removes <;> rfl

theorem fn_cases (command : Command) :
    command = .run ∨ (∃ removal, command.removal = some removal) ∨
      ∀ env heap optind rest, command.fn jansson env heap optind rest = exitFailure ∨
        ∃ asked, command.fn jansson env heap optind rest = .ok asked ∧ ∀ env argv, asked ≠ .exec env argv := by
  cases command with
  | run => exact .inl rfl
  | removeScope | removeSlice | removeSensor => exact .inr (.inl ⟨_, rfl⟩)
  | listActuators | listScopes | listSlices | listSensors | exit | tick =>
      exact .inr (.inr fun _ _ _ _ => .inr ⟨_, rfl, nofun⟩)
  | addSlice | addSensor | findActuator | findScope | findSlice | findSensor =>
      refine .inr (.inr fun _ _ _ rest => ?_)
      cases rest with
      | nil => exact .inl rfl
      | cons name rest => exact .inr ⟨_, rfl, nofun⟩
  | addScope =>
      refine .inr (.inr fun _ _ _ rest => ?_)
      simp only [Command.fn, cmdAddScope]
      split
      · split
        · exact .inl rfl
        · exact .inr ⟨_, rfl, nofun⟩
      · exact .inl rfl
  | actuate | listen | sendEvent =>
      refine .inr (.inr fun _ _ _ rest => ?_)
      match rest with
      | [] => first | exact .inl rfl | exact .inr ⟨_, rfl, nofun⟩
      | [_] => first | exact .inl rfl | exact .inr ⟨_, rfl, nofun⟩
      | [_, _] => first | exact .inl rfl | exact .inr ⟨_, rfl, nofun⟩
      | _ :: _ :: _ :: _ => first | exact .inl rfl | exact .inr ⟨_, rfl, nofun⟩

theorem wordsFrom_one (words : List NrmString) : wordsFrom 1 words = .ok words := by
  simp [wordsFrom]

/-- The words before `optind` might as well not be there. -/
theorem cmdRemove_eq (type : TargetType) (position optind : Nat) :
    cmdRemove type position optind rest =
      if rest.length + 1 < optind then .error (.fault .danglingPointer)
      else cmdRemove type position 1 (rest.drop (optind - 1)) := by
  simp only [cmdRemove, wordsFrom_one]
  rw [wordsFrom]
  split
  · rfl
  · rfl

theorem scanAskAll_error {words : List NrmString} {stop : ToolsStop}
    (failed : scanAskAll words = .error stop) : stop = .returned 1 := by
  obtain ⟨tokens, last, final, -, -, stops⟩ := (scan_eq_error_iff ..).mp failed
  obtain rfl | rfl | ⟨option, optarg, -, ⟨⟩⟩ := stops.outcome
  · rfl
  · rfl

theorem cmdRemove_one_cases (type : TargetType) (position : Nat) (words : List NrmString) :
    cmdRemove type position 1 words = exitFailure ∨
      ∃ all name, cmdRemove type position 1 words = .ok (.remove type all name) := by
  simp only [cmdRemove, wordsFrom_one, bind, Except.bind]
  cases scanned : scanAskAll words with
  | error stop =>
      obtain rfl := scanAskAll_error scanned
      exact .inl rfl
  | ok result =>
      obtain ⟨askAll, rest⟩ := result
      simp only
      split
      · exact .inl rfl
      · split
        · exact .inl rfl
        · rename_i name found
          exact .inr ⟨askAll, name, rfl⟩

theorem fn_exec {command : Command} {optind : Nat} {asked : Env} {argv : List NrmString}
    (ran : command.fn jansson env heap optind rest = .ok (.exec asked argv)) :
    command = .run ∧ cmdRun env heap rest = .ok (.exec asked argv) := by
  obtain rfl | ⟨⟨type, position⟩, removes⟩ | other := fn_cases command
  · exact ⟨rfl, ran⟩
  · rw [fn_of_removal removes, cmdRemove_eq] at ran
    split at ran
    · cases ran
    · obtain failed | ⟨all, name, found⟩ := cmdRemove_one_cases type position (rest.drop (optind - 1))
      · rw [failed] at ran
        cases ran
      · rw [found] at ran
        cases ran
  · obtain failed | ⟨other, found, apart⟩ := other env heap optind rest
    · rw [failed] at ran
      cases ran
    · rw [found] at ran
      cases ran
      exact absurd rfl (apart _ _)

/-- A client is created with the address and the ports that the options mean. -/
def Connects (doubles : Doubles F) (clientCreate : Option NrmString → Int → Int → Int)
    (args : ToolsArgs F) (tokens : List (ToolsOption × Option NrmString)) : Prop :=
  let settings := toolsMeaning doubles { args with flags := 0 } tokens
  clientCreate settings.upstreamUri settings.pubPort settings.rpcPort = 0

theorem main_command (globals : Globals doubles before tokens) (plain : Plain tokens)
    (connects : Connects doubles clientCreate args tokens) (command : Command) :
    main doubles jansson clientCreate args env heap (before ++ command.name :: rest) =
      command.fn jansson env heap (1 + before.length) rest := by
  rw [main_of_globals globals plain command.operand]
  exact dispatch_command command _ connects

end Lines

/-- `nrmc run` starts a program exactly on the lines made of global options, the command,
its own options and at least one word more, when the daemon answers at the address given.
The program gets these last words as they are, whatever they look like, and an environment
in which the libraries of the options stand behind those that were there. -/
theorem nrmc_run_execs (doubles : Doubles F) (jansson : Jansson)
    (clientCreate : Option NrmString → Int → Int → Int) (args : ToolsArgs F) (env : Env)
    (heap : StringHeap) (words : List NrmString) (after : Env)
    (argv : List NrmString) :
    main doubles jansson clientCreate args env heap words = .ok (.exec after argv) ↔
      ∃ before tokens front tail runTokens,
        words = before ++ Command.run.name :: (front ++ tail) ∧ Globals doubles before tokens ∧
        Plain tokens ∧ Connects doubles clientCreate args tokens ∧
        runOptions.Written front runTokens ∧ runOptions.Ends tail argv ∧ argv ≠ [] ∧
        after = runEnv env runTokens := by
  constructor
  · intro ran
    obtain ⟨⟨⟩⟩ | ⟨⟨⟩⟩ | ⟨⟨⟩⟩ | ⟨⟨⟩⟩ | ⟨before, tokens, left, rfl, globals, plain, dispatched⟩ :=
      main_cases _ ran
    obtain ⟨status, ⟨⟩⟩ | ⟨rest, rfl, connected⟩ | ⟨command, rest, rfl, connects, called⟩ :=
      dispatch_cases dispatched.symm
    · obtain failed | ⟨retries, found⟩ | ⟨word, -, -, asserted⟩ := cmdConnect_cases rest
      · cases connected.trans failed
      · cases connected.trans found
      · cases connected.trans asserted
    · obtain ⟨rfl, run⟩ := fn_exec called.symm
      obtain ⟨front, tail, runTokens, again, rfl, written, ends, filled, same⟩ :=
        (cmdRun_iff env heap rest _).mp run
      cases same
      exact ⟨before, tokens, front, tail, runTokens, rfl, globals, plain, connects, written, ends,
        filled, rfl⟩
  · rintro ⟨before, tokens, front, tail, runTokens, rfl, globals, plain, connects, written, ends,
      filled, rfl⟩
    rw [main_command globals plain connects]
    exact (cmdRun_iff ..).mpr ⟨front, tail, runTokens, argv, rfl, written, ends, filled, rfl⟩

theorem globals_verbose {before : List NrmString}
    (words : before = [[45, 118]] ∨ before = [[45, 118], [45, 45]]) :
    Globals sampleDoubles before [(.verbose, none)] := by
  have short : (toolsOptions 0).shortFor 118 = some ⟨118, .verbose, false⟩ := rfl
  have readable : Readable sampleDoubles ([] ++ [(.verbose, none)]) :=
    (readable_snoc _).mpr ⟨readable_nil _, show levelOf [] ≠ 2 ^ 31 - 1 by decide⟩
  exact ⟨_, .more (.short (.flag short rfl .done)) .none, readable, words⟩

/-- An environment where `LD_PRELOAD` is `p`. -/
def sampleEnv : Env := Function.update (fun _ => none) ldPreload (some [112])

/-- `-v run -d a ls -l` -/
theorem nrmc_run_execs_sample :
    ∃ after, main sampleDoubles trees (fun _ _ _ => 0) sampleArgs sampleEnv .empty
        [[45, 118], [114, 117, 110], [45, 100], [97], [108, 115], [45, 108]] =
          .ok (.exec after [[108, 115], [45, 108]]) ∧
      after ldPreload = some [112, 58, 97] ∧ after ompToolLibraries = some [] := by
  have short : runOptions.shortFor 100 = some ⟨100, .preload, true⟩ := rfl
  have operand : runOptions.Operand [108, 115] := by
    rintro c more ⟨⟩
  have written : runOptions.Written [[45, 100], [97]] [(.preload, some [97])] :=
    .more (.short (.separate short rfl)) .none
  refine ⟨_, (nrmc_run_execs sampleDoubles trees _ sampleArgs sampleEnv .empty _ _ _).mpr
    ⟨_, _, [[45, 100], [97]], [[108, 115], [45, 108]], _, rfl, globals_verbose (.inl rfl), ⟨rfl, rfl⟩, rfl,
      written,
      .operand operand, by simp, rfl⟩, ?_⟩
  decide

end LibNrm.Nrmc
