import Mathlib.Data.List.TakeWhile

namespace LibNrm.Data.Getopt

/-! Words are read from the front, one option with each call, until the first word
that is no option.  Short options stand alone or several in a word; the argument of
one is the rest of its word, or the next word if nothing is left.  A long option may
be cut short as long as all the options it could be are the same one.
-/

variable {C T S E : Type}

structure Short (C T : Type) where
  char : C
  token : T
  hasArg : Bool

structure Long (C T : Type) where
  name : List C
  token : T
  hasArg : Bool

structure Options (C T : Type) where
  dash : C
  equals : C
  shorts : List (Short C T)
  longs : List (Long C T)
  plain : ∀ short ∈ shorts, short.char ≠ dash

/-- The words not read yet, behind what is left of a word of short options. -/
structure Cursor (C : Type) where
  cluster : List C
  words : List (List C)

def Cursor.size (cursor : Cursor C) : Nat :=
  cursor.cluster.length + cursor.words.flatten.length + cursor.words.length

inductive Outcome (C T : Type) where
  | option (token : T) (arg : Option (List C))
  | missing
  | unknown
  | finished

namespace Options

variable [DecidableEq C] (options : Options C T)

def shortFor (c : C) : Option (Short C T) := options.shorts.find? (fun short => short.char = c)

/-- An exact match goes before every abbreviation. -/
def longFor [DecidableEq T] (name : List C) : Option (Long C T) :=
  match options.longs.find? (fun long => long.name = name) with
  | some long => some long
  | none =>
      match options.longs.filter (fun long => name.isPrefixOf long.name) with
      | [] => none
      | first :: others =>
          if ∀ long ∈ others, long.token = first.token ∧ long.hasArg = first.hasArg then some first
          else none

/-- A call inside a word of short options. -/
def nextShort (c : C) (more : List C) (words : List (List C)) : Outcome C T × Cursor C :=
  match options.shortFor c with
  | none => (.unknown, ⟨more, words⟩)
  | some short =>
      if short.hasArg then
        match more, words with
        | [], [] => (.missing, ⟨[], []⟩)
        | [], arg :: rest => (.option short.token (some arg), ⟨[], rest⟩)
        | arg, words => (.option short.token (some arg), ⟨[], words⟩)
      else (.option short.token none, ⟨more, words⟩)

/-- A call at a word that starts with two dashes; `arg` is what follows an equals sign. -/
def nextLong [DecidableEq T] (name : List C) (arg : Option (List C)) (words : List (List C)) :
    Outcome C T × Cursor C :=
  match options.longFor name with
  | none => (.unknown, ⟨[], words⟩)
  | some long =>
      match arg, long.hasArg, words with
      | some arg, true, words => (.option long.token (some arg), ⟨[], words⟩)
      | some _, false, words => (.unknown, ⟨[], words⟩)
      | none, true, [] => (.missing, ⟨[], []⟩)
      | none, true, arg :: rest => (.option long.token (some arg), ⟨[], rest⟩)
      | none, false, words => (.option long.token none, ⟨[], words⟩)

/-- One call. -/
def next [DecidableEq T] : Cursor C → Outcome C T × Cursor C
  | ⟨c :: more, words⟩ => options.nextShort c more words
  | ⟨[], []⟩ => (.finished, ⟨[], []⟩)
  | ⟨[], word :: words⟩ =>
      match word with
      | first :: second :: more =>
          if first ≠ options.dash then (.finished, ⟨[], word :: words⟩)
          else if second ≠ options.dash then options.nextShort second more words
          else if more = [] then (.finished, ⟨[], words⟩)
          else
            let name := more.takeWhile (fun c => c ≠ options.equals)
            options.nextLong name (more.dropWhile (fun c => c ≠ options.equals)).tail? words
      | _ => (.finished, ⟨[], word :: words⟩)

end Options

section Grammar

variable [DecidableEq C] (options : Options C T)

/-- The rest of a word of short options, and the next word if the last one takes it. -/
inductive Options.Cluster :
    List C → List (List C) → List (T × Option (List C)) → Prop where
  | done : Cluster [] [] []
  | flag {c : C} {short : Short C T} {more : List C} {args : List (List C)}
      {tokens : List (T × Option (List C))} :
      options.shortFor c = some short → short.hasArg = false → Cluster more args tokens →
      Cluster (c :: more) args ((short.token, none) :: tokens)
  | attached {c : C} {short : Short C T} {arg : List C} :
      options.shortFor c = some short → short.hasArg = true → arg ≠ [] →
      Cluster (c :: arg) [] [(short.token, some arg)]
  | separate {c : C} {short : Short C T} {arg : List C} :
      options.shortFor c = some short → short.hasArg = true →
      Cluster [c] [arg] [(short.token, some arg)]

/-- A word that starts with a dash, and the next word if it takes that. -/
inductive Options.Group [DecidableEq T] : List (List C) → List (T × Option (List C)) → Prop where
  | short {c : C} {more : List C} {args : List (List C)} {tokens : List (T × Option (List C))} :
      options.Cluster (c :: more) args tokens → Group ((options.dash :: c :: more) :: args) tokens
  | long {name : List C} {long : Long C T} :
      name ≠ [] → options.equals ∉ name → options.longFor name = some long → long.hasArg = false →
      Group [options.dash :: options.dash :: name] [(long.token, none)]
  | longEquals {name arg : List C} {long : Long C T} :
      options.equals ∉ name → options.longFor name = some long → long.hasArg = true →
      Group [options.dash :: options.dash :: (name ++ options.equals :: arg)] [(long.token, some arg)]
  | longSeparate {name arg : List C} {long : Long C T} :
      name ≠ [] → options.equals ∉ name → options.longFor name = some long → long.hasArg = true →
      Group [options.dash :: options.dash :: name, arg] [(long.token, some arg)]

inductive Options.Written [DecidableEq T] : List (List C) → List (T × Option (List C)) → Prop where
  | none : Written [] []
  | more {words rest : List (List C)} {tokens others : List (T × Option (List C))} :
      options.Group words tokens → Written rest others → Written (words ++ rest) (tokens ++ others)

def Options.Operand (word : List C) : Prop := ∀ c more, word ≠ options.dash :: c :: more

/-- Where the options end, and the words that are left. -/
inductive Options.Ends : List (List C) → List (List C) → Prop where
  | empty : Ends [] []
  | terminator {rest : List (List C)} : Ends ([options.dash, options.dash] :: rest) rest
  | operand {word : List C} {rest : List (List C)} :
      options.Operand word → Ends (word :: rest) (word :: rest)

end Grammar

/-- What the loop does with the options, one after the other. -/
def perform (act : S → T → Option (List C) → Except E S) (state : S)
    (tokens : List (T × Option (List C))) : Except E S :=
  tokens.foldlM (fun state token => act state token.1 token.2) state

theorem perform_snoc {act : S → T → Option (List C) → Except E S} {state final : S}
    {tokens : List (T × Option (List C))} {token : T × Option (List C)} :
    perform act state (tokens ++ [token]) = .ok final ↔
      ∃ next, perform act state tokens = .ok next ∧ act next token.1 token.2 = .ok final := by
  simp only [perform, List.foldlM_append, List.foldlM_cons, List.foldlM_nil]
  cases tokens.foldlM (fun state token => act state token.1 token.2) state with
  | error stop => simp [bind, Except.bind]
  | ok next =>
      cases result : act next token.1 token.2 with
      | error stop => simp [bind, Except.bind, result]
      | ok final => simp [bind, Except.bind, pure, Except.pure, result]

/-- The arguments of one option, in the order of the words. -/
def given {A : Type} [DecidableEq T] (token : T) (tokens : List (T × Option A)) : List A :=
  tokens.flatMap fun other => if other.1 = token then other.2.toList else []

theorem given_snoc {A : Type} [DecidableEq T] (token : T) (tokens : List (T × Option A))
    (last : T × Option A) :
    given token (tokens ++ [last]) =
      given token tokens ++ if last.1 = token then last.2.toList else [] := by
  simp [given]

section Calls

variable [DecidableEq C] {options : Options C T}

theorem shortFor_ne_dash {c : C} {short : Short C T} (found : options.shortFor c = some short) :
    c ≠ options.dash := by
  have same : short.char = c := by simpa using List.find?_some found
  rw [← same]
  exact options.plain short (List.mem_of_find?_eq_some found)

theorem Options.Cluster.head_ne_dash {c : C} {more : List C} {args : List (List C)}
    {tokens : List (T × Option (List C))} (read : options.Cluster (c :: more) args tokens) :
    c ≠ options.dash := by
  cases read with
  | flag found _ _ => exact shortFor_ne_dash found
  | attached found _ _ => exact shortFor_ne_dash found
  | separate found _ => exact shortFor_ne_dash found

theorem nextShort_cases {c : C} {more : List C} {words : List (List C)} {outcome : Outcome C T}
    {after : Cursor C} (called : options.nextShort c more words = (outcome, after)) :
    outcome = .missing ∨ outcome = .unknown ∨ ∃ short, options.shortFor c = some short ∧
      ((short.hasArg = false ∧ outcome = .option short.token none ∧ after = ⟨more, words⟩) ∨
       (short.hasArg = true ∧ more ≠ [] ∧ outcome = .option short.token (some more) ∧
          after = ⟨[], words⟩) ∨
       (short.hasArg = true ∧ more = [] ∧ ∃ arg rest, words = arg :: rest ∧
          outcome = .option short.token (some arg) ∧ after = ⟨[], rest⟩)) := by
  unfold Options.nextShort at called
  split at called
  · cases called
    exact .inr (.inl rfl)
  · rename_i short found
    split at called
    · rename_i takes
      split at called
      · cases called
        exact .inl rfl
      · cases called
        exact .inr (.inr ⟨short, found, .inr (.inr ⟨takes, rfl, _, _, rfl, rfl, rfl⟩)⟩)
      · rename_i noArg noWord
        cases called
        refine .inr (.inr ⟨short, found, .inr (.inl ⟨takes, ?_, rfl, rfl⟩)⟩)
        rintro rfl
        cases words with
        | nil => exact noArg rfl rfl
        | cons arg rest => exact noWord arg rest rfl rfl
    · rename_i takesNone
      cases called
      exact .inr (.inr ⟨short, found, .inl ⟨by simpa using takesNone, rfl, rfl⟩⟩)

variable [DecidableEq T]

theorem nextLong_cases {name : List C} {arg : Option (List C)} {words : List (List C)}
    {outcome : Outcome C T} {after : Cursor C}
    (called : options.nextLong name arg words = (outcome, after)) :
    outcome = .missing ∨ outcome = .unknown ∨ ∃ long, options.longFor name = some long ∧
      ((long.hasArg = false ∧ arg = none ∧ outcome = .option long.token none ∧
          after = ⟨[], words⟩) ∨
       (long.hasArg = true ∧ ∃ value, arg = some value ∧ outcome = .option long.token (some value) ∧
          after = ⟨[], words⟩) ∨
       (long.hasArg = true ∧ arg = none ∧ ∃ value rest, words = value :: rest ∧
          outcome = .option long.token (some value) ∧ after = ⟨[], rest⟩)) := by
  unfold Options.nextLong at called
  split at called
  · cases called
    exact .inr (.inl rfl)
  · rename_i long found
    split at called
    · rename_i takes
      cases called
      exact .inr (.inr ⟨long, found, .inr (.inl ⟨takes, _, rfl, rfl, rfl⟩)⟩)
    · cases called
      exact .inr (.inl rfl)
    · cases called
      exact .inl rfl
    · rename_i takes
      cases called
      exact .inr (.inr ⟨long, found, .inr (.inr ⟨takes, rfl, _, _, rfl, rfl, rfl⟩)⟩)
    · rename_i takesNone
      cases called
      exact .inr (.inr ⟨long, found, .inl ⟨takesNone, rfl, rfl, rfl⟩⟩)

/-- A call reads a short option, here or at the front of the next word, or a long one,
or there is no option left to read. -/
theorem next_cases {cursor after : Cursor C} {outcome : Outcome C T}
    (called : options.next cursor = (outcome, after)) :
    (∃ c more words, (cursor = ⟨c :: more, words⟩ ∨
        (c ≠ options.dash ∧ cursor = ⟨[], (options.dash :: c :: more) :: words⟩)) ∧
      options.nextShort c more words = (outcome, after)) ∨
    (∃ body words, body ≠ [] ∧ cursor = ⟨[], (options.dash :: options.dash :: body) :: words⟩ ∧
      options.nextLong (body.takeWhile (fun c => c ≠ options.equals))
        (body.dropWhile (fun c => c ≠ options.equals)).tail? words = (outcome, after)) ∨
    (cursor.cluster = [] ∧ outcome = .finished ∧ options.Ends cursor.words after.words) := by
  match cursor, called with
  | ⟨c :: more, words⟩, called => exact .inl ⟨c, more, words, .inl rfl, called⟩
  | ⟨[], []⟩, called =>
      cases called
      exact .inr (.inr ⟨rfl, rfl, .empty⟩)
  | ⟨[], [] :: words⟩, called =>
      cases called
      exact .inr (.inr ⟨rfl, rfl, .operand (by simp [Options.Operand])⟩)
  | ⟨[], [c] :: words⟩, called =>
      cases called
      exact .inr (.inr ⟨rfl, rfl, .operand (by simp [Options.Operand])⟩)
  | ⟨[], (first :: second :: more) :: words⟩, called =>
      simp only [Options.next] at called
      split at called
      · rename_i other
        cases called
        exact .inr (.inr ⟨rfl, rfl, .operand (by simp [Options.Operand, other])⟩)
      · rename_i isDash
        obtain rfl : first = options.dash := not_not.mp isDash
        split at called
        · rename_i isShort
          exact .inl ⟨second, more, words, .inr ⟨isShort, rfl⟩, called⟩
        · rename_i isLong
          obtain rfl : second = options.dash := not_not.mp isLong
          split at called
          · rename_i bare
            subst bare
            cases called
            exact .inr (.inr ⟨rfl, rfl, .terminator⟩)
          · rename_i body
            exact .inr (.inl ⟨more, words, body, rfl, called⟩)

theorem next_size {cursor after : Cursor C} {token : T} {arg : Option (List C)}
    (called : options.next cursor = (.option token arg, after)) : after.size < cursor.size := by
  obtain ⟨c, more, words, start, read⟩ | ⟨body, words, -, rfl, read⟩ | ⟨-, ⟨⟩, -⟩ :=
    next_cases called
  · have shorter : after.size ≤ more.length + words.flatten.length + words.length := by
      obtain ⟨⟨⟩⟩ | ⟨⟨⟩⟩ | ⟨short, -, ⟨-, -, rfl⟩ | ⟨-, -, -, rfl⟩ | ⟨-, -, value, rest, rfl, -, rfl⟩⟩ :=
        nextShort_cases read
      · exact le_refl _
      · simp [Cursor.size]
      · simp only [Cursor.size, List.length_nil, List.flatten_cons, List.length_append, List.length_cons]
        omega
    apply Nat.lt_of_le_of_lt shorter
    obtain rfl | ⟨-, rfl⟩ := start
    · simp only [Cursor.size, List.length_cons]
      omega
    · simp only [Cursor.size, List.length_nil, List.flatten_cons, List.length_append, List.length_cons]
      omega
  · obtain ⟨⟨⟩⟩ | ⟨⟨⟩⟩ | ⟨long, -, ⟨-, -, -, rfl⟩ | ⟨-, value, -, -, rfl⟩ |
      ⟨-, -, value, rest, rfl, -, rfl⟩⟩ := nextLong_cases read
    all_goals
      simp only [Cursor.size, List.length_nil, List.flatten_cons, List.length_append, List.length_cons]
      omega

variable (options) in
/-- The calls until no option is left; `act` is done with each option, and the two
errors are what the loop ends with at a bad word. -/
def scan (act : S → T → Option (List C) → Except E S) (missing unknown : E) (state : S)
    (cursor : Cursor C) : Except E (S × List (List C)) :=
  match _ : options.next cursor with
  | (.finished, after) => .ok (state, after.words)
  | (.missing, _) => .error missing
  | (.unknown, _) => .error unknown
  | (.option token arg, after) =>
      match act state token arg with
      | .error stop => .error stop
      | .ok state => scan act missing unknown state after
termination_by cursor.size
decreasing_by exact next_size ‹_›

/-- The options that a sequence of calls gives, and the words left in the end. -/
inductive Options.Calls (options : Options C T) :
    Cursor C → List (T × Option (List C)) → List (List C) → Prop where
  | finished {cursor after : Cursor C} :
      options.next cursor = (.finished, after) → Calls options cursor [] after.words
  | option {cursor after : Cursor C} {token : T} {arg : Option (List C)}
      {tokens : List (T × Option (List C))} {rest : List (List C)} :
      options.next cursor = (.option token arg, after) → Calls options after tokens rest →
      Calls options cursor ((token, arg) :: tokens) rest

theorem Options.Calls.of_next {cursor after : Cursor C} {outcome : Outcome C T}
    {tokens : List (T × Option (List C))} {rest : List (List C)}
    (calls : options.Calls cursor tokens rest) (called : options.next cursor = (outcome, after)) :
    (outcome = .finished ∧ tokens = [] ∧ rest = after.words) ∨
    ∃ token arg others, outcome = .option token arg ∧ tokens = (token, arg) :: others ∧
      options.Calls after others rest := by
  cases calls with
  | finished again =>
      cases called.symm.trans again
      exact .inl ⟨rfl, rfl, rfl⟩
  | option again later =>
      cases called.symm.trans again
      exact .inr ⟨_, _, _, rfl, rfl, later⟩

theorem Options.Calls.of_next_eq {cursor other : Cursor C} {tokens : List (T × Option (List C))}
    {rest : List (List C)} (calls : options.Calls other tokens rest)
    (same : options.next cursor = options.next other) : options.Calls cursor tokens rest := by
  cases calls with
  | finished called => exact .finished (same.trans called)
  | option called later => exact .option (same.trans called) later

theorem scan_eq_ok_iff_calls (act : S → T → Option (List C) → Except E S) (missing unknown : E)
    (state : S) (cursor : Cursor C) (final : S) (rest : List (List C)) :
    scan options act missing unknown state cursor = .ok (final, rest) ↔
      ∃ tokens, options.Calls cursor tokens rest ∧ perform act state tokens = .ok final := by
  fun_induction scan options act missing unknown state cursor with
  | case1 state cursor after called =>
      constructor
      · rintro ⟨⟩
        exact ⟨[], .finished called, rfl⟩
      · rintro ⟨tokens, calls, done⟩
        obtain ⟨-, rfl, rfl⟩ | ⟨token, arg, others, ⟨⟩, -⟩ := calls.of_next called
        cases done
        rfl
  | case2 state cursor after called =>
      constructor
      · rintro ⟨⟩
      · rintro ⟨tokens, calls, done⟩
        obtain ⟨⟨⟩, -⟩ | ⟨token, arg, others, ⟨⟩, -⟩ := calls.of_next called
  | case3 state cursor after called =>
      constructor
      · rintro ⟨⟩
      · rintro ⟨tokens, calls, done⟩
        obtain ⟨⟨⟩, -⟩ | ⟨token, arg, others, ⟨⟩, -⟩ := calls.of_next called
  | case4 state cursor token arg after called stop stopped =>
      constructor
      · rintro ⟨⟩
      · rintro ⟨tokens, calls, done⟩
        obtain ⟨⟨⟩, -⟩ | ⟨token, arg, others, ⟨⟩, rfl, -⟩ := calls.of_next called
        simp [perform, stopped, bind, Except.bind] at done
  | case5 state cursor token arg after called next acted ih =>
      rw [ih]
      constructor
      · rintro ⟨tokens, calls, done⟩
        refine ⟨(token, arg) :: tokens, .option called calls, ?_⟩
        simpa [perform, acted, bind, Except.bind] using done
      · rintro ⟨tokens, calls, done⟩
        obtain ⟨⟨⟩, -⟩ | ⟨token, arg, others, ⟨⟩, rfl, later⟩ := calls.of_next called
        refine ⟨others, later, ?_⟩
        simpa [perform, acted, bind, Except.bind] using done

theorem takeWhile_dropWhile_of_not_mem {equals : C} {name rest : List C} (plain : equals ∉ name)
    (stops : rest.head? = none ∨ rest.head? = some equals) :
    (name ++ rest).takeWhile (fun c => c ≠ equals) = name ∧
      (name ++ rest).dropWhile (fun c => c ≠ equals) = rest := by
  have inside : ∀ c ∈ name, decide (c ≠ equals) = true := by
    intro c member
    rw [decide_eq_true_eq]
    rintro rfl
    exact plain member
  rw [List.takeWhile_append_of_pos inside, List.dropWhile_append_of_pos inside]
  cases rest with
  | nil => simp
  | cons c rest =>
      obtain rfl : c = equals := by simpa using stops
      simp

theorem Options.Cluster.calls {cluster : List C} {args words rest : List (List C)}
    {tokens others : List (T × Option (List C))} (read : options.Cluster cluster args tokens)
    (later : options.Calls ⟨[], words⟩ others rest) :
    options.Calls ⟨cluster, args ++ words⟩ (tokens ++ others) rest := by
  induction read with
  | done => exact later
  | flag found takesNone _ ih =>
      refine .option ?_ ih
      simp [Options.next, Options.nextShort, found, takesNone]
  | @attached c short arg found takes some =>
      refine .option ?_ later
      cases arg with
      | nil => exact absurd rfl some
      | cons d arg => simp [Options.next, Options.nextShort, found, takes]
  | separate found takes =>
      refine .option ?_ later
      simp [Options.next, Options.nextShort, found, takes]

theorem Options.Group.calls {group words rest : List (List C)}
    {tokens others : List (T × Option (List C))} (read : options.Group group tokens)
    (later : options.Calls ⟨[], words⟩ others rest) :
    options.Calls ⟨[], group ++ words⟩ (tokens ++ others) rest := by
  cases read with
  | @short c more args _ cluster =>
      have started : options.next ⟨[], (options.dash :: c :: more) :: (args ++ words)⟩ =
          options.next ⟨c :: more, args ++ words⟩ := by
        simp [Options.next, cluster.head_ne_dash]
      exact (cluster.calls later).of_next_eq started
  | @long name long some plain found takesNone =>
      have parts := @takeWhile_dropWhile_of_not_mem C _ options.equals name [] plain (.inl rfl)
      rw [List.append_nil] at parts
      refine .option ?_ later
      simp only [Options.next, List.cons_append, List.nil_append]
      rw [if_neg (by simp), if_neg (by simp), if_neg some, parts.1, parts.2]
      simp [Options.nextLong, found, takesNone]
  | @longEquals name arg long plain found takes =>
      have parts := @takeWhile_dropWhile_of_not_mem C _ options.equals name (options.equals :: arg)
        plain (.inr rfl)
      refine .option ?_ later
      simp only [Options.next, List.cons_append, List.nil_append]
      rw [if_neg (by simp), if_neg (by simp), if_neg (by simp), parts.1, parts.2]
      simp [Options.nextLong, found, takes]
  | @longSeparate name arg long some plain found takes =>
      have parts := @takeWhile_dropWhile_of_not_mem C _ options.equals name [] plain (.inl rfl)
      rw [List.append_nil] at parts
      refine .option ?_ later
      simp only [Options.next, List.cons_append, List.nil_append]
      rw [if_neg (by simp), if_neg (by simp), if_neg some, parts.1, parts.2]
      simp [Options.nextLong, found, takes]

theorem Options.Ends.calls {tail rest : List (List C)} (ends : options.Ends tail rest) :
    options.Calls ⟨[], tail⟩ [] rest := by
  cases ends with
  | empty =>
      have stopped : options.next ⟨[], []⟩ = (.finished, ⟨[], []⟩) := rfl
      exact .finished stopped
  | terminator =>
      have stopped : options.next ⟨[], [options.dash, options.dash] :: rest⟩ =
          (.finished, ⟨[], rest⟩) := by
        simp [Options.next]
      exact .finished stopped
  | @operand word others operand =>
      have stopped : options.next ⟨[], word :: others⟩ = (.finished, ⟨[], word :: others⟩) := by
        match word, operand with
        | [], _ => rfl
        | [c], _ => rfl
        | first :: second :: more, operand =>
            have other : first ≠ options.dash := by
              rintro rfl
              exact operand second more rfl
            simp [Options.next, other]
      exact .finished stopped

theorem Options.Written.calls {front tail rest : List (List C)}
    {tokens : List (T × Option (List C))} (written : options.Written front tokens)
    (ends : options.Ends tail rest) : options.Calls ⟨[], front ++ tail⟩ tokens rest := by
  induction written with
  | none => exact ends.calls
  | more group _ ih =>
      rw [List.append_assoc]
      exact group.calls ih

theorem body_of_takeWhile {equals : C} (body : List C) :
    (equals ∉ body.takeWhile (fun c => c ≠ equals)) ∧
      (((body.dropWhile (fun c => c ≠ equals)).tail? = none ∧
          body = body.takeWhile (fun c => c ≠ equals)) ∨
        ∃ arg, (body.dropWhile (fun c => c ≠ equals)).tail? = some arg ∧
          body = body.takeWhile (fun c => c ≠ equals) ++ equals :: arg) := by
  have plain : equals ∉ body.takeWhile (fun c => c ≠ equals) := by
    intro member
    simpa using List.mem_takeWhile_imp member
  refine ⟨plain, ?_⟩
  have whole : body.takeWhile (fun c => c ≠ equals) ++ body.dropWhile (fun c => c ≠ equals) = body :=
    List.takeWhile_append_dropWhile
  cases left : body.dropWhile (fun c => c ≠ equals) with
  | nil =>
      rw [left, List.append_nil] at whole
      exact .inl ⟨rfl, whole.symm⟩
  | cons c arg =>
      have stopped := List.head?_dropWhile_not (fun c => decide (c ≠ equals)) body
      rw [left] at stopped
      obtain rfl : c = equals := by simpa using stopped
      rw [left] at whole
      exact .inr ⟨arg, rfl, whole.symm⟩

variable (options) in
/-- The words ahead are written as the grammar says: first the rest of the word the
cursor is in, then whole groups. -/
def Options.Reads (cursor : Cursor C) (tokens : List (T × Option (List C)))
    (rest : List (List C)) : Prop :=
  ∃ args front tail first others, cursor.words = args ++ (front ++ tail) ∧
    tokens = first ++ others ∧ options.Cluster cursor.cluster args first ∧
    options.Written front others ∧ options.Ends tail rest

theorem Options.Reads.between {words rest : List (List C)} {tokens : List (T × Option (List C))}
    (reads : options.Reads ⟨[], words⟩ tokens rest) :
    ∃ front tail, words = front ++ tail ∧ options.Written front tokens ∧ options.Ends tail rest := by
  obtain ⟨args, front, tail, first, others, split, rfl, cluster, written, ends⟩ := reads
  cases cluster with
  | done => exact ⟨front, tail, split, written, ends⟩

theorem Options.Reads.of_group {group words rest : List (List C)}
    {tokens others : List (T × Option (List C))} (read : options.Group group tokens)
    (reads : options.Reads ⟨[], words⟩ others rest) :
    options.Reads ⟨[], group ++ words⟩ (tokens ++ others) rest := by
  obtain ⟨front, tail, rfl, written, ends⟩ := reads.between
  refine ⟨[], group ++ front, tail, [], tokens ++ others, ?_, rfl, .done, .more read written, ends⟩
  rw [List.nil_append, List.append_assoc]

theorem Options.Reads.of_word {c : C} {more : List C} {words rest : List (List C)}
    {tokens : List (T × Option (List C))} (reads : options.Reads ⟨c :: more, words⟩ tokens rest) :
    options.Reads ⟨[], (options.dash :: c :: more) :: words⟩ tokens rest := by
  obtain ⟨args, front, tail, first, others, split, rfl, cluster, written, ends⟩ := reads
  refine ⟨[], (options.dash :: c :: more) :: args ++ front, tail, [], first ++ others, ?_, rfl, .done,
    .more (.short cluster) written, ends⟩
  obtain rfl : words = args ++ (front ++ tail) := split
  simp

theorem Options.Reads.of_nextShort {c : C} {more : List C} {words rest : List (List C)}
    {token : T} {arg : Option (List C)} {after : Cursor C} {tokens : List (T × Option (List C))}
    (read : options.nextShort c more words = (.option token arg, after))
    (reads : options.Reads after tokens rest) :
    options.Reads ⟨c :: more, words⟩ ((token, arg) :: tokens) rest := by
  obtain ⟨⟨⟩⟩ | ⟨⟨⟩⟩ | ⟨short, found, ⟨takesNone, ⟨⟩, rfl⟩ | ⟨takes, filled, ⟨⟩, rfl⟩ |
    ⟨takes, rfl, value, words, rfl, ⟨⟩, rfl⟩⟩ := nextShort_cases read
  · obtain ⟨args, front, tail, first, others, split, rfl, cluster, written, ends⟩ := reads
    exact ⟨args, front, tail, _, others, split, rfl, .flag found takesNone cluster, written, ends⟩
  · obtain ⟨front, tail, rfl, written, ends⟩ := reads.between
    exact ⟨[], front, tail, _, tokens, rfl, rfl, .attached found takes filled, written, ends⟩
  · obtain ⟨front, tail, rfl, written, ends⟩ := reads.between
    exact ⟨[value], front, tail, _, tokens, rfl, rfl, .separate found takes, written, ends⟩

theorem Options.Reads.of_nextLong {body : List C} {words rest : List (List C)} {token : T}
    {arg : Option (List C)} {after : Cursor C} {tokens : List (T × Option (List C))}
    (filled : body ≠ [])
    (read : options.nextLong (body.takeWhile (fun c => c ≠ options.equals))
      (body.dropWhile (fun c => c ≠ options.equals)).tail? words = (.option token arg, after))
    (reads : options.Reads after tokens rest) :
    options.Reads ⟨[], (options.dash :: options.dash :: body) :: words⟩ ((token, arg) :: tokens)
      rest := by
  obtain ⟨plain, ⟨bare, whole⟩ | ⟨value, given, whole⟩⟩ := @body_of_takeWhile C _ options.equals body
  · rw [bare, ← whole] at read
    rw [← whole] at plain
    obtain ⟨⟨⟩⟩ | ⟨⟨⟩⟩ | ⟨long, found, ⟨takesNone, -, ⟨⟩, rfl⟩ | ⟨-, value, ⟨⟩, -⟩ |
      ⟨takes, -, value, words, rfl, ⟨⟩, rfl⟩⟩ := nextLong_cases read
    · exact reads.of_group (.long filled plain found takesNone)
    · exact reads.of_group (.longSeparate filled plain found takes)
  · rw [given] at read
    obtain ⟨⟨⟩⟩ | ⟨⟨⟩⟩ | ⟨long, found, ⟨-, ⟨⟩, -⟩ | ⟨takes, value, ⟨⟩, ⟨⟩, rfl⟩ | ⟨-, ⟨⟩, -⟩⟩ :=
      nextLong_cases read
    rw [whole]
    exact reads.of_group (.longEquals plain found takes)

theorem Options.Calls.reads {cursor : Cursor C} {tokens : List (T × Option (List C))}
    {rest : List (List C)} (calls : options.Calls cursor tokens rest) :
    options.Reads cursor tokens rest := by
  induction calls with
  | @finished cursor after called =>
      obtain ⟨c, more, words, -, read⟩ | ⟨body, words, -, rfl, read⟩ | ⟨bare, -, ends⟩ :=
        next_cases called
      · obtain ⟨⟨⟩⟩ | ⟨⟨⟩⟩ | ⟨short, -, ⟨-, ⟨⟩, -⟩ | ⟨-, -, ⟨⟩, -⟩ | ⟨-, -, arg, rest, -, ⟨⟩, -⟩⟩ :=
          nextShort_cases read
      · obtain ⟨⟨⟩⟩ | ⟨⟨⟩⟩ | ⟨long, -, ⟨-, -, ⟨⟩, -⟩ | ⟨-, arg, -, ⟨⟩, -⟩ |
          ⟨-, -, arg, rest, -, ⟨⟩, -⟩⟩ := nextLong_cases read
      · refine ⟨[], [], cursor.words, [], [], rfl, rfl, ?_, .none, ends⟩
        rw [bare]
        exact .done
  | @option cursor after token arg tokens rest called _ ih =>
      obtain ⟨c, more, words, rfl | ⟨-, rfl⟩, read⟩ | ⟨body, words, filled, rfl, read⟩ | ⟨-, ⟨⟩, -⟩ :=
        next_cases called
      · exact ih.of_nextShort read
      · exact (ih.of_nextShort read).of_word
      · exact ih.of_nextLong filled read

/-- A scan succeeds exactly on words that are options as the grammar has them and then
an end, if what is done with the options succeeds. -/
theorem scan_eq_ok_iff (act : S → T → Option (List C) → Except E S) (missing unknown : E)
    (state final : S) (words rest : List (List C)) :
    scan options act missing unknown state ⟨[], words⟩ = .ok (final, rest) ↔
      ∃ front tail tokens, words = front ++ tail ∧ options.Written front tokens ∧
        options.Ends tail rest ∧ perform act state tokens = .ok final := by
  rw [scan_eq_ok_iff_calls]
  constructor
  · rintro ⟨tokens, calls, done⟩
    obtain ⟨front, tail, split, written, ends⟩ := calls.reads.between
    exact ⟨front, tail, tokens, split, written, ends, done⟩
  · rintro ⟨front, tail, tokens, rfl, written, ends, done⟩
    exact ⟨tokens, written.calls ends, done⟩

variable (options) in
/-- The table has this option, and says the same about its argument. -/
def Options.Offers (token : T) (arg : Option (List C)) : Prop :=
  (∃ short ∈ options.shorts, short.token = token ∧ short.hasArg = arg.isSome) ∨
    ∃ long ∈ options.longs, long.token = token ∧ long.hasArg = arg.isSome

theorem longFor_mem {name : List C} {long : Long C T} (found : options.longFor name = some long) :
    long ∈ options.longs := by
  unfold Options.longFor at found
  split at found
  · rename_i exactly
    cases found
    exact List.mem_of_find?_eq_some exactly
  · split at found
    · cases found
    · rename_i first others matching
      split at found
      · cases found
        have member : long ∈ options.longs.filter (fun long => name.isPrefixOf long.name) := by
          rw [matching]
          exact List.mem_cons_self
        exact (List.mem_filter.mp member).1
      · cases found

theorem offers_of_next {cursor after : Cursor C} {token : T} {arg : Option (List C)}
    (called : options.next cursor = (.option token arg, after)) : options.Offers token arg := by
  obtain ⟨c, more, words, -, read⟩ | ⟨body, words, -, rfl, read⟩ | ⟨-, ⟨⟩, -⟩ := next_cases called
  · left
    obtain ⟨⟨⟩⟩ | ⟨⟨⟩⟩ | ⟨short, found, ⟨takesNone, ⟨⟩, -⟩ | ⟨takes, -, ⟨⟩, -⟩ |
      ⟨takes, -, value, rest, -, ⟨⟩, -⟩⟩ := nextShort_cases read
    · exact ⟨short, List.mem_of_find?_eq_some found, rfl, takesNone⟩
    · exact ⟨short, List.mem_of_find?_eq_some found, rfl, takes⟩
    · exact ⟨short, List.mem_of_find?_eq_some found, rfl, takes⟩
  · right
    obtain ⟨⟨⟩⟩ | ⟨⟨⟩⟩ | ⟨long, found, ⟨takesNone, -, ⟨⟩, -⟩ | ⟨takes, value, -, ⟨⟩, -⟩ |
      ⟨takes, -, value, rest, -, ⟨⟩, -⟩⟩ := nextLong_cases read
    · exact ⟨long, longFor_mem found, rfl, takesNone⟩
    · exact ⟨long, longFor_mem found, rfl, takes⟩
    · exact ⟨long, longFor_mem found, rfl, takes⟩

/-- The options that the first calls give, and where the cursor is then. -/
inductive Options.Begins (options : Options C T) :
    Cursor C → List (T × Option (List C)) → Cursor C → Prop where
  | none {cursor : Cursor C} : Begins options cursor [] cursor
  | option {cursor after last : Cursor C} {token : T} {arg : Option (List C)}
      {tokens : List (T × Option (List C))} :
      options.next cursor = (.option token arg, after) → Begins options after tokens last →
      Begins options cursor ((token, arg) :: tokens) last

theorem Options.Begins.offers {cursor last : Cursor C} {tokens : List (T × Option (List C))}
    (begins : options.Begins cursor tokens last) :
    ∀ token ∈ tokens, options.Offers token.1 token.2 := by
  induction begins with
  | none => exact fun _ => nofun
  | option called _ ih =>
      intro token member
      obtain rfl | later := List.mem_cons.mp member
      · exact offers_of_next called
      · exact ih token later

theorem Options.Calls.begins {cursor : Cursor C} {tokens : List (T × Option (List C))}
    {rest : List (List C)} (calls : options.Calls cursor tokens rest) :
    ∃ last, options.Begins cursor tokens last := by
  induction calls with
  | finished => exact ⟨_, .none⟩
  | option called _ ih =>
      obtain ⟨last, later⟩ := ih
      exact ⟨last, .option called later⟩

theorem Options.Written.offers {words : List (List C)} {tokens : List (T × Option (List C))}
    (written : options.Written words tokens) : ∀ token ∈ tokens, options.Offers token.1 token.2 := by
  obtain ⟨last, begins⟩ := (written.calls .empty).begins
  exact begins.offers

theorem Options.Begins.of_next {cursor after last : Cursor C} {outcome : Outcome C T}
    {tokens : List (T × Option (List C))} (begins : options.Begins cursor tokens last)
    (called : options.next cursor = (outcome, after)) :
    (tokens = [] ∧ last = cursor) ∨ ∃ token arg others, outcome = .option token arg ∧
      tokens = (token, arg) :: others ∧ options.Begins after others last := by
  cases begins with
  | none => exact .inl ⟨rfl, rfl⟩
  | option again later =>
      cases called.symm.trans again
      exact .inr ⟨_, _, _, rfl, rfl, later⟩

/-- What the loop ends with at a call: one of its own errors at a bad word, or the error of
what is done with the option. -/
inductive StopsAt (act : S → T → Option (List C) → Except E S) (missing unknown : E) (state : S) :
    Outcome C T → E → Prop where
  | missing : StopsAt act missing unknown state .missing missing
  | unknown : StopsAt act missing unknown state .unknown unknown
  | option {token : T} {arg : Option (List C)} {stop : E} : act state token arg = .error stop →
      StopsAt act missing unknown state (.option token arg) stop

omit [DecidableEq C] [DecidableEq T] in
theorem StopsAt.outcome {act : S → T → Option (List C) → Except E S} {missing unknown stop : E}
    {state : S} {outcome : Outcome C T} (stops : StopsAt act missing unknown state outcome stop) :
    stop = missing ∨ stop = unknown ∨
      ∃ token arg, outcome = .option token arg ∧ act state token arg = .error stop := by
  cases stops with
  | missing => exact .inl rfl
  | unknown => exact .inr (.inl rfl)
  | option acted => exact .inr (.inr ⟨_, _, rfl, acted⟩)

theorem offers_of_outcome {cursor : Cursor C} {token : T} {arg : Option (List C)}
    (called : (options.next cursor).1 = .option token arg) : options.Offers token arg :=
  offers_of_next (Prod.ext called rfl)

/-- The options that some first calls give can be dealt with, and the next call stops the loop. -/
def Options.Fails (options : Options C T) (act : S → T → Option (List C) → Except E S)
    (missing unknown : E) (state : S) (cursor : Cursor C) (stop : E) : Prop :=
  ∃ tokens last final, options.Begins cursor tokens last ∧ perform act state tokens = .ok final ∧
    StopsAt act missing unknown final (options.next last).1 stop

section Fails

variable {act : S → T → Option (List C) → Except E S} {missing unknown stop : E} {state : S}
  {cursor after : Cursor C}

/-- A call that no other one follows is the one where the loop fails, if it does. -/
theorem fails_last_iff {outcome : Outcome C T} (called : options.next cursor = (outcome, after))
    (ends : ∀ token arg next, outcome = .option token arg → act state token arg ≠ .ok next) :
    options.Fails act missing unknown state cursor stop ↔
      StopsAt act missing unknown state outcome stop := by
  constructor
  · rintro ⟨tokens, last, final, begins, done, stops⟩
    obtain ⟨rfl, rfl⟩ | ⟨token, arg, others, rfl, rfl, -⟩ := begins.of_next called
    · cases done
      rwa [called] at stops
    · cases acted : act state token arg with
      | error failure => simp [perform, acted, bind, Except.bind] at done
      | ok next => exact absurd acted (ends token arg next rfl)
  · intro stops
    exact ⟨[], cursor, state, .none, rfl, called ▸ stops⟩

theorem fails_next_iff {token : T} {arg : Option (List C)} {next : S}
    (called : options.next cursor = (.option token arg, after))
    (acted : act state token arg = .ok next) :
    options.Fails act missing unknown state cursor stop ↔
      options.Fails act missing unknown next after stop := by
  constructor
  · rintro ⟨tokens, last, final, begins, done, stops⟩
    obtain ⟨rfl, rfl⟩ | ⟨token, arg, others, ⟨⟩, rfl, later⟩ := begins.of_next called
    · cases done
      rw [called] at stops
      cases stops with
      | option failed => cases acted.symm.trans failed
    · refine ⟨others, last, final, later, ?_, stops⟩
      simpa [perform, acted, bind, Except.bind] using done
  · rintro ⟨tokens, last, final, begins, done, stops⟩
    refine ⟨(token, arg) :: tokens, last, final, .option called begins, ?_, stops⟩
    simpa [perform, acted, bind, Except.bind] using done

end Fails

/-- A loop fails exactly at a call where it stops, in the state that the options before it
lead to. -/
theorem scan_eq_error_iff (act : S → T → Option (List C) → Except E S) (missing unknown : E)
    (state : S) (cursor : Cursor C) (stop : E) :
    scan options act missing unknown state cursor = .error stop ↔
      options.Fails act missing unknown state cursor stop := by
  fun_induction scan options act missing unknown state cursor with
  | case1 state cursor after called =>
      rw [fails_last_iff called nofun]
      exact ⟨nofun, nofun⟩
  | case2 state cursor after called =>
      rw [fails_last_iff called nofun]
      constructor
      · rintro ⟨⟩
        exact .missing
      · rintro ⟨⟩
        rfl
  | case3 state cursor after called =>
      rw [fails_last_iff called nofun]
      constructor
      · rintro ⟨⟩
        exact .unknown
      · rintro ⟨⟩
        rfl
  | case4 state cursor token arg after called failure stopped =>
      rw [fails_last_iff called (by rintro _ _ _ ⟨⟩ acted; cases stopped.symm.trans acted)]
      constructor
      · rintro ⟨⟩
        exact .option stopped
      · intro stops
        cases stops with
        | option failed =>
            cases stopped.symm.trans failed
            rfl
  | case5 state cursor token arg after called next acted ih =>
      rw [fails_next_iff called acted]
      exact ih

end Calls

end LibNrm.Data.Getopt
