import Mathlib.Data.List.Induction
import SerialLink.Tool.Process

/-!
# What a command line says

A command line is a list of clauses, each a switch or a setting with its value (`Tool.Clause`), and what stands in
place of a value is one, whatever it looks like.  A list of words is read exactly if it is one of clauses; else it
is refused where no clause can begin (`Tool.Stops`).  Of the clauses only those of the same name know of each
other: of a setting the last value counts (`Tool.said`), and clauses of different names may change places
(`Tool.said_eq_of_reordered`).  What is said overrides the configuration that the tool begins with
(`Tool.Options.base?`).  Together: `Tool.reads_clauses`.
-/

namespace SerialLink.Tool

open Options

/-- A part of a command line. -/
inductive Clause
  | switch (s : Switch)
  | setting (s : Setting) (value : Bytes)
  deriving DecidableEq

namespace Clause

/-- The name of a clause. -/
def name : Clause → Bytes
  | switch s => s.word
  | setting s _ => s.word

/-- The words of a clause. -/
def words : Clause → List Bytes
  | switch s => [s.word]
  | setting s value => [s.word, value]

/-- What a clause does to options. -/
def apply : Clause → Options → Options
  | switch s, o => o.switchOn s
  | setting s value, o => o.set s value

/-- The value that a clause gives to a setting, if it is one of that setting. -/
def valueOf? (s : Setting) : Clause → Option Bytes
  | switch _ => none
  | setting t value => if t = s then some value else none

end Clause

/-- The words of clauses. -/
def wordsOf (clauses : List Clause) : List Bytes := clauses.flatMap Clause.words

/-- The last value that clauses give to a setting. -/
def lastValue? (s : Setting) (clauses : List Clause) : Option Bytes :=
  (clauses.filterMap (Clause.valueOf? s)).getLast?

/-- The number that a value stands for. -/
def numberOf (value : Bytes) : UInt32 := (leadingNumber value).toUInt32

/-- What clauses say: a switch is on if it is there, and of a setting the last value counts. -/
def said (clauses : List Clause) : Options where
  configPath := (lastValue? .config clauses).getD []
  address := (lastValue? .address clauses).getD []
  sendText := (lastValue? .send clauses).getD []
  saveStatePath := (lastValue? .saveState clauses).getD []
  bind := clauses.contains (.switch .bind)
  interrupt := clauses.contains (.switch .interrupt)
  timeout := (lastValue? .timeout clauses).map numberOf
  count := ((lastValue? .count clauses).map numberOf).getD 0
  verbose := clauses.contains (.switch .verbose)

/-- Why no clause begins with the first of some words. -/
inductive Stops : List Bytes → Refusal → Prop
  | help {word : Bytes} {rest : List Bytes} (asked : isHelp word = true) : Stops (word :: rest) .help
  /-- The word is no name, or it is the name of a setting, and there is no value behind it. -/
  | unknown {word : Bytes} {rest : List Bytes} (unasked : isHelp word = false)
      (noSwitch : ∀ s : Switch, word ≠ s.word) (noSetting : ∀ s : Setting, word = s.word → rest = []) :
      Stops (word :: rest) (.unknown word)

/-! ### Names -/

theorem Switch.isHelp_word (s : Switch) : isHelp s.word = false := by
  cases s <;> decide +kernel

theorem Setting.isHelp_word (s : Setting) : isHelp s.word = false := by
  cases s <;> decide +kernel

theorem Switch.ofWord?_word (s : Switch) : Switch.ofWord? s.word = some s := by
  cases s <;> decide +kernel

theorem Setting.ofWord?_word (s : Setting) : Setting.ofWord? s.word = some s := by
  cases s <;> decide +kernel

/-- No setting has the name of a switch. -/
theorem Setting.ofWord?_switch (s : Switch) : Setting.ofWord? s.word = none := by
  cases s <;> decide +kernel

theorem Switch.ofWord?_eq_none_iff {word : Bytes} :
    Switch.ofWord? word = none ↔ ∀ s : Switch, word ≠ s.word := by
  constructor
  · rintro none s rfl
    rw [ofWord?_word] at none
    cases none
  · intro other
    rw [ofWord?, List.find?_eq_none]
    intro s _ same
    exact other s (beq_iff_eq.mp same).symm

theorem Switch.eq_word {word : Bytes} {s : Switch} (found : Switch.ofWord? word = some s) : word = s.word :=
  (beq_iff_eq.mp (List.find?_some found :)).symm

theorem Setting.eq_word {word : Bytes} {s : Setting} (found : Setting.ofWord? word = some s) : word = s.word :=
  (beq_iff_eq.mp (List.find?_some found :)).symm

/-! ### Reading -/

variable {o : Options} {words : List Bytes} {clauses others : List Clause}

theorem parseFrom_switch (s : Switch) (rest : List Bytes) (o : Options) :
    parseFrom (s.word :: rest) o = parseFrom rest (o.switchOn s) := by
  cases rest with
  | nil => simp only [parseFrom, s.isHelp_word, s.ofWord?_word, Bool.false_eq_true, if_false]
  | cons value rest =>
    simp only [parseFrom, s.isHelp_word, s.ofWord?_word, Setting.ofWord?_switch, Bool.false_eq_true, if_false]

theorem parseFrom_setting (s : Setting) (value : Bytes) (rest : List Bytes) (o : Options) :
    parseFrom (s.word :: value :: rest) o = parseFrom rest (o.set s value) := by
  simp only [parseFrom, s.isHelp_word, s.ofWord?_word, Bool.false_eq_true, if_false]

/-- Clauses are read one after the other. -/
theorem parseFrom_wordsOf (clauses : List Clause) (rest : List Bytes) (o : Options) :
    parseFrom (wordsOf clauses ++ rest) o = parseFrom rest (clauses.foldl (fun o c => c.apply o) o) := by
  induction clauses generalizing o with
  | nil => rfl
  | cons c clauses ih =>
    cases c with
    | switch s => exact (parseFrom_switch s _ o).trans (ih _)
    | setting s value => exact (parseFrom_setting s value _ o).trans (ih _)

/-- Where no clause can begin the command line is refused. -/
theorem Stops.refused {refusal : Refusal} (stops : Stops words refusal) (o : Options) :
    parseFrom words o = .error refusal := by
  cases stops with
  | @help word rest asked =>
    cases rest <;> simp only [parseFrom, asked, if_true]
  | @unknown word rest unasked noSwitch noSetting =>
    have none := Switch.ofWord?_eq_none_iff.mpr noSwitch
    cases rest with
    | nil => simp only [parseFrom, unasked, none, Bool.false_eq_true, if_false]
    | cons value rest =>
      have neither : Setting.ofWord? word = Option.none := by
        refine Option.eq_none_iff_forall_ne_some.mpr fun s found => ?_
        exact absurd (noSetting s (Setting.eq_word found)) (List.cons_ne_nil _ _)
      simp only [parseFrom, unasked, none, neither, Bool.false_eq_true, if_false]

/-- Every list of words is one of clauses, or begins with some of them and then stops. -/
theorem clauses_or_stops (words : List Bytes) :
    (∃ clauses, words = wordsOf clauses) ∨
      ∃ clauses rest refusal, words = wordsOf clauses ++ rest ∧ Stops rest refusal := by
  -- A clause in front of words that are read, or stop, is read as well.
  have front (c : Clause) {rest : List Bytes}
      (reads : (∃ clauses, rest = wordsOf clauses) ∨
        ∃ clauses last refusal, rest = wordsOf clauses ++ last ∧ Stops last refusal) :
      (∃ clauses, c.words ++ rest = wordsOf clauses) ∨
        ∃ clauses last refusal, c.words ++ rest = wordsOf clauses ++ last ∧ Stops last refusal := by
    rcases reads with ⟨clauses, rfl⟩ | ⟨clauses, last, refusal, rfl, stops⟩
    · exact .inl ⟨c :: clauses, rfl⟩
    · exact .inr ⟨c :: clauses, last, refusal, (List.append_assoc _ _ _).symm, stops⟩
  have here {rest : List Bytes} {refusal : Refusal} (stops : Stops rest refusal) :
      ∃ clauses last refusal, rest = wordsOf clauses ++ last ∧ Stops last refusal :=
    ⟨[], rest, refusal, rfl, stops⟩
  induction words using List.twoStepInduction with
  | nil => exact .inl ⟨[], rfl⟩
  | singleton word =>
    by_cases asked : isHelp word = true
    · exact .inr (here (.help asked))
    cases found : Switch.ofWord? word with
    | some s =>
      rw [Switch.eq_word found]
      exact front (.switch s) (.inl ⟨[], rfl⟩)
    | none =>
      exact .inr (here (.unknown (Bool.eq_false_iff.mpr asked) (Switch.ofWord?_eq_none_iff.mp found)
        fun _ _ => rfl))
  | cons_cons word value rest behind next =>
    by_cases asked : isHelp word = true
    · exact .inr (here (.help asked))
    cases found : Setting.ofWord? word with
    | some s =>
      rw [Setting.eq_word found]
      exact front (.setting s value) behind
    | none =>
      cases on : Switch.ofWord? word with
      | some s =>
        rw [Switch.eq_word on]
        exact front (.switch s) (next value)
      | none =>
        refine .inr (here (.unknown (Bool.eq_false_iff.mpr asked) (Switch.ofWord?_eq_none_iff.mp on) ?_))
        rintro s rfl
        rw [Setting.ofWord?_word] at found
        cases found

/-! ### What clauses say -/

theorem lastValue?_concat_switch (s : Setting) (clauses : List Clause) (t : Switch) :
    lastValue? s (clauses ++ [.switch t]) = lastValue? s clauses := by
  rw [lastValue?, lastValue?, List.filterMap_append]
  exact congrArg List.getLast? (List.append_nil _)

/-- A value that is given to a setting is its last one until another one comes. -/
theorem lastValue?_concat_setting (s : Setting) (clauses : List Clause) (t : Setting) (value : Bytes) :
    lastValue? s (clauses ++ [.setting t value]) = if t = s then some value else lastValue? s clauses := by
  rw [lastValue?, List.filterMap_append, List.filterMap_cons, List.filterMap_nil, Clause.valueOf?]
  by_cases same : t = s
  · rw [if_pos same, if_pos same]
    exact List.getLast?_concat
  · rw [if_neg same, if_neg same]
    exact congrArg List.getLast? (List.append_nil _)

theorem contains_concat (clauses : List Clause) (c d : Clause) :
    (clauses ++ [c]).contains d = (clauses.contains d || d == c) := by
  rw [List.contains_append, List.contains_cons, List.contains_nil, Bool.or_false]

/-- One more clause does to what is said what it does to options. -/
theorem said_concat (clauses : List Clause) (c : Clause) : said (clauses ++ [c]) = c.apply (said clauses) := by
  cases c with
  | switch s =>
    simp only [said, lastValue?_concat_switch, contains_concat]
    cases s <;> simp [Clause.apply, switchOn]
  | setting s value =>
    simp only [said, lastValue?_concat_setting, contains_concat]
    cases s <;> simp [Clause.apply, Options.set, numberOf]

theorem foldl_apply (clauses : List Clause) : clauses.foldl (fun o c => c.apply o) {} = said clauses := by
  induction clauses using List.reverseRecOn with
  | nil => rfl
  | append_singleton clauses c ih => rw [List.foldl_append, ih, said_concat, List.foldl_cons, List.foldl_nil]

/-- Clauses are read as what they say. -/
theorem parse_wordsOf (clauses : List Clause) : parse (wordsOf clauses) = .ok (said clauses) := by
  have all := parseFrom_wordsOf clauses [] {}
  rw [List.append_nil, foldl_apply] at all
  exact all

theorem parse_stops {rest : List Bytes} {refusal : Refusal} (clauses : List Clause)
    (stops : Stops rest refusal) : parse (wordsOf clauses ++ rest) = .error refusal := by
  rw [parse, parseFrom_wordsOf]
  exact stops.refused _

/-- **A command line is read exactly if it is one of clauses.** -/
theorem parse_eq_ok_iff : parse words = .ok o ↔ ∃ clauses, words = wordsOf clauses ∧ o = said clauses := by
  constructor
  · intro read
    rcases clauses_or_stops words with ⟨clauses, rfl⟩ | ⟨clauses, rest, refusal, rfl, stops⟩
    · rw [parse_wordsOf] at read
      exact ⟨clauses, rfl, (Except.ok.inj read).symm⟩
    · rw [parse_stops clauses stops] at read
      cases read
  · rintro ⟨clauses, rfl, rfl⟩
    exact parse_wordsOf clauses

/-- It is refused exactly where no clause can begin. -/
theorem parse_eq_error_iff {refusal : Refusal} :
    parse words = .error refusal ↔ ∃ clauses rest, words = wordsOf clauses ++ rest ∧ Stops rest refusal := by
  constructor
  · intro read
    rcases clauses_or_stops words with ⟨clauses, rfl⟩ | ⟨clauses, rest, other, rfl, stops⟩
    · rw [parse_wordsOf] at read
      cases read
    · rw [parse_stops clauses stops] at read
      exact ⟨clauses, rest, rfl, Except.error.inj read ▸ stops⟩
  · rintro ⟨clauses, rest, rfl, stops⟩
    exact parse_stops clauses stops

/-! ### The order of clauses -/

/-- Whether clauses come in another order in which those of each name are in their order. -/
def Reordered (a b : List Clause) : Prop := ∀ name, a.filter (·.name == name) = b.filter (·.name == name)

/-- Two clauses of different names that stand one behind the other may change places. -/
theorem reordered_swap {c d : Clause} (apart : c.name ≠ d.name) (a b : List Clause) :
    Reordered (a ++ c :: d :: b) (a ++ d :: c :: b) := by
  intro name
  rw [List.filter_append, List.filter_append]
  congr 1
  by_cases first : c.name = name
  · have second : ¬ d.name = name := fun same => apart (first.trans same.symm)
    simp [first, second]
  · simp [List.filter_cons, first]

theorem Clause.valueOf?_of_name {c : Clause} {s : Setting} {value : Bytes} (given : c.valueOf? s = some value) :
    c.name = s.word := by
  cases c with
  | switch => cases given
  | setting t =>
    rw [valueOf?] at given
    split at given
    · next same => exact congrArg Setting.word same
    · cases given

/-- Only the clauses of its name give a setting its value. -/
theorem lastValue?_filter (s : Setting) (clauses : List Clause) :
    lastValue? s (clauses.filter (·.name == s.word)) = lastValue? s clauses := by
  rw [lastValue?, lastValue?, List.filterMap_filter]
  refine congrArg List.getLast? (congrArg (List.filterMap · clauses) (funext fun c => ?_))
  cases given : c.valueOf? s with
  | none => exact ite_self _
  | some value => rw [Clause.valueOf?_of_name given, beq_self_eq_true, if_pos rfl]

theorem contains_filter (s : Switch) (clauses : List Clause) :
    (clauses.filter (·.name == s.word)).contains (.switch s) = clauses.contains (.switch s) := by
  rw [Bool.eq_iff_iff, List.contains_iff_mem, List.contains_iff_mem, List.mem_filter, and_iff_left]
  exact beq_self_eq_true _

/-- **The order of clauses of different names does not matter.** -/
theorem said_eq_of_reordered (reordered : Reordered clauses others) : said clauses = said others := by
  have setting (s : Setting) : lastValue? s clauses = lastValue? s others := by
    rw [← lastValue?_filter s clauses, reordered s.word, lastValue?_filter]
  have switch (s : Switch) : clauses.contains (.switch s) = others.contains (.switch s) := by
    rw [← contains_filter s clauses, reordered s.word, contains_filter]
  simp only [said, setting, switch]

/-! ### The configuration -/

/-- The configuration that the tool begins with: the one in the document that the options name, if it can be
loaded, or a new one if they name none. -/
def Options.base? (o : Options) (folder : Folder) : Option Config :=
  if o.configPath = [] then some {}
  else
    match (Config.load folder o.configPath {}).value with
    | (true, config) => some config
    | (false, _) => none

theorem value_configure? (o : Options) (folder : Folder) :
    (configure? o (folder.read? o.configPath)).value = (o.base? folder).map o.override := by
  unfold configure? Options.base?
  by_cases unnamed : o.configPath = []
  · rw [unnamed]
    rfl
  · rw [if_neg (mt List.isEmpty_iff.mp unnamed), if_neg unnamed, Config.load, Traced.value_bind]
    rcases Config.loadSource o.configPath (folder.read? o.configPath) {} with ⟨⟨_ | _, config⟩, _⟩ <;> rfl

/-- The link is made as the configuration says under the options. -/
theorem value_start? (o : Options) (folder : Folder) (host : Tcp.Host) :
    (start? o folder host).value =
      (o.base? folder).bind fun config => (establish? o (o.override config) host).value := by
  unfold start?
  rw [Traced.value_bind, value_configure?]
  cases o.base? folder <;> rfl

/-- What clauses make of a configuration. -/
structure Overrides (clauses : List Clause) (before after : Config) : Prop where
  /-- An address counts unless it is empty. -/
  peerAddress : after.peerAddress = ((lastValue? .address clauses).filter (· ≠ [])).getD before.peerAddress
  bindAsServer : after.bindAsServer = (before.bindAsServer || clauses.contains (.switch .bind))
  interruptBased : after.interruptBased = (before.interruptBased || clauses.contains (.switch .interrupt))
  transferTimeout : after.transferTimeout = ((lastValue? .timeout clauses).map numberOf).getD before.transferTimeout

theorem overrides (clauses : List Clause) (config : Config) :
    Overrides clauses config ((said clauses).override config) where
  peerAddress := by
    show (if ((lastValue? .address clauses).getD []).isEmpty = true then _ else _) = _
    rw [show (said clauses).address = (lastValue? .address clauses).getD [] from rfl]
    cases lastValue? .address clauses with
    | none => rfl
    | some address => cases address <;> rfl
  bindAsServer := rfl
  interruptBased := rfl
  transferTimeout := rfl

/-- **A command line is read as clauses**: exactly if it is made up of such, and else it is refused where none can
begin.  Of a setting the last value counts, and clauses of different names may change places.  The link is made as
the document says that is named, or as a new configuration says, overridden by what is said. -/
theorem reads_clauses (words : List Bytes) :
    (∀ o, parse words = .ok o ↔ ∃ clauses, words = wordsOf clauses ∧ o = said clauses) ∧
      (∀ refusal, parse words = .error refusal ↔
        ∃ clauses rest, words = wordsOf clauses ++ rest ∧ Stops rest refusal) ∧
      (∀ clauses others, Reordered clauses others → parse (wordsOf clauses) = parse (wordsOf others)) ∧
      ∀ clauses folder host, let o := said clauses
        (configure? o (folder.read? o.configPath)).value = (o.base? folder).map o.override ∧
          (start? o folder host).value =
            ((o.base? folder).map o.override).bind (fun config => (establish? o config host).value) ∧
          ∀ config, Overrides clauses config (o.override config) := by
  refine ⟨fun o => parse_eq_ok_iff, fun refusal => parse_eq_error_iff, fun clauses others reordered => ?_, ?_⟩
  · rw [parse_wordsOf, parse_wordsOf, said_eq_of_reordered reordered]
  · intro clauses folder host o
    refine ⟨value_configure? o folder, ?_, overrides clauses⟩
    rw [value_start?, Option.bind_map]
    rfl

/-- What looks like an option is a value behind a setting, and a setting at the end is refused. -/
theorem reads_clauses_verbatim :
    let help : Bytes := Bytes.ofString "--help"
    let three : Clause := .setting .count (Bytes.ofString "3")
    let clauses : List Clause := [.setting .send help, three, .switch .bind]
    let others : List Clause := [.setting .send help, .switch .bind, three]
    Reordered clauses others ∧ parse (wordsOf clauses) = parse (wordsOf others) ∧
      parse (["--send", "--help", "--count", "3", "--bind"].map Bytes.ofString) =
        .ok { sendText := help, count := 3, bind := true } ∧
      parse (["--bind", "--count"].map Bytes.ofString) = .error (.unknown Setting.count.word) := by
  intro help three clauses others
  have reordered : Reordered clauses others :=
    reordered_swap (c := three) (d := .switch .bind) (by decide +kernel) [.setting .send help] []
  obtain ⟨_, _, same, _⟩ := reads_clauses []
  refine ⟨reordered, same _ _ reordered, ?_, ?_⟩
  · refine ((reads_clauses _).1 _).mpr ⟨clauses, by decide +kernel, by decide +kernel⟩
  · refine ((reads_clauses _).2.1 _).mpr ⟨[.switch .bind], [Setting.count.word], rfl, ?_⟩
    exact .unknown (Setting.isHelp_word _) (fun s => by cases s <;> decide +kernel) fun _ _ => rfl

end SerialLink.Tool
