import Mathlib
import StatusList.Command.Report

/-!
# Exit codes

The program exits with zero where something is shown, with two where a lookup has found nothing,
and with one where anything else has kept a command from showing something. Each command ends in
just one way (`Command.exists_ends`, `Command.Ends.run_eq`), and of commands the codes keep these
ways apart.

They do so of commands only. Arguments that are refused, as those with a number of bits that is no
width, come to no command, and nor do no arguments at all; the program then exits with two, and by
the code alone that is not told from a lookup that has found nothing (`exits_tell_iff`).
-/

namespace StatusList

namespace Command

/-! ## How commands end -/

/-- How a command ends. -/
inductive Ending where
  /-- A text is shown. -/
  | shown (text : String)
  /-- A lookup has found nothing. -/
  | notFound
  /-- A lookup was invalid. -/
  | invalid
  /-- The command has failed. -/
  | failed (cause : Failure)

/-- What the program says of an ending. -/
def Ending.report : Ending → Report
  | shown text => ⟨0, text ++ "\n", none⟩
  | notFound => ⟨2, "", some "NOT FOUND"⟩
  | invalid =>
    ⟨1, "", some
      "INVALID: the document could not be fetched or decoded (run with -v for details)"⟩
  | failed cause => ⟨1, "", some cause.message⟩

/-- What comes of looking a list up with settings; a base that is given comes first. -/
def listOutcome (t : Transport) (settings : Settings) (reference : String) (base : Option Url) :
    Outcome Document :=
  ((Client.ofSettings { settings with listBase := base.or settings.listBase } none).list
    (some reference)).run t

/-- What comes of looking the lists of a pool up with settings. -/
def poolOutcome (t : Transport) (settings : Settings) (pool : Option String) (base : Option Url) :
    Outcome Aggregation :=
  ((Client.ofSettings { settings with poolBase := base.or settings.poolBase } none).aggregation
    pool).run t

/-- How commands end in an environment, with files and with what is published. -/
inductive Ends (env : Environment) (files : Files) (t : Transport) : Command → Ending → Prop where
  /-- The file with the list cannot be read. -/
  | unreadable {width : Width} {source : Source} {index : Option Nat} {cause : Failure}
      (h : source.read files = .error cause) :
      Ends env files t (.decode width source index) (.failed cause)
  /-- The list cannot be decoded. -/
  | undecoded {width : Width} {source : Source} {index : Option Nat} {encoded : String}
      {cause : EntryError} (hread : source.read files = .ok encoded)
      (h : unpackValues width encoded = .error cause) :
      Ends env files t (.decode width source index) (.failed (.badEntries cause))
  /-- All values of the list are shown. -/
  | values {width : Width} {source : Source} {encoded : String} {values : ByteArray}
      (hread : source.read files = .ok encoded) (h : unpackValues width encoded = .ok values) :
      Ends env files t (.decode width source none) (.shown (valuesJson values).compact)
  /-- One value of the list is shown. -/
  | value {width : Width} {source : Source} {index : Nat} {encoded : String} {values : ByteArray}
      (hread : source.read files = .ok encoded) (hvalues : unpackValues width encoded = .ok values)
      (h : index < values.size) :
      Ends env files t (.decode width source (some index))
        (.shown (toString (values.get index h)))
  /-- The index is outside the list. -/
  | outside {width : Width} {source : Source} {index : Nat} {encoded : String} {values : ByteArray}
      (hread : source.read files = .ok encoded) (hvalues : unpackValues width encoded = .ok values)
      (h : ¬index < values.size) :
      Ends env files t (.decode width source (some index)) (.failed (.noEntry index values.size))
  /-- A value does not fit. -/
  | unfit {width : Width} {values : List UInt8} {uri : Option String} {cause : EntryError}
      (h : packValues width values = .error cause) :
      Ends env files t (.encode width values uri) (.failed (.badEntries cause))
  /-- The claim that carries the values is shown. -/
  | claim {width : Width} {values : List UInt8} {uri : Option String} {list : Packed}
      (h : packValues width values = .ok list) :
      Ends env files t (.encode width values uri) (.shown (list.toClaim uri).toJson.pretty)
  /-- A setting is refused, before a list is looked up. -/
  | unsetList {reference : String} {index : Option UInt32} {base : Option Url} {cause : BadSetting}
      (h : Settings.ofEnvironment env = .error cause) :
      Ends env files t (.fetch reference index base) (.failed (.badSetting cause))
  /-- A list is found and shown. -/
  | document {reference : String} {base : Option Url} {settings : Settings} {d : Document}
      (hsettings : Settings.ofEnvironment env = .ok settings)
      (h : listOutcome t settings reference base = .found d) :
      Ends env files t (.fetch reference none base) (.shown d.toJson.pretty)
  /-- A list is found, and one entry of it is shown. -/
  | entry {reference : String} {index : UInt32} {base : Option Url} {settings : Settings}
      {d : Document} {value : UInt8} (hsettings : Settings.ofEnvironment env = .ok settings)
      (hfound : listOutcome t settings reference base = .found d)
      (h : d.status? index = some value) :
      Ends env files t (.fetch reference (some index) base) (.shown (toString value))
  /-- A list is found, and the index is outside it. -/
  | noEntry {reference : String} {index : UInt32} {base : Option Url} {settings : Settings}
      {d : Document} (hsettings : Settings.ofEnvironment env = .ok settings)
      (hfound : listOutcome t settings reference base = .found d) (h : d.status? index = none) :
      Ends env files t (.fetch reference (some index) base)
        (.failed (.noEntry index.toNat d.total))
  /-- The lookup of a list ends in nothing found. -/
  | noList {reference : String} {index : Option UInt32} {base : Option Url} {settings : Settings}
      (hsettings : Settings.ofEnvironment env = .ok settings)
      (h : listOutcome t settings reference base = .notFound) :
      Ends env files t (.fetch reference index base) .notFound
  /-- The lookup of a list is invalid. -/
  | badList {reference : String} {index : Option UInt32} {base : Option Url} {settings : Settings}
      (hsettings : Settings.ofEnvironment env = .ok settings)
      (h : listOutcome t settings reference base = .invalid) :
      Ends env files t (.fetch reference index base) .invalid
  /-- A setting is refused, before a pool is looked up. -/
  | unsetPool {pool : Option String} {base : Option Url} {cause : BadSetting}
      (h : Settings.ofEnvironment env = .error cause) :
      Ends env files t (.aggregation pool base) (.failed (.badSetting cause))
  /-- The lists of a pool are found and shown. -/
  | pool {pool : Option String} {base : Option Url} {settings : Settings} {a : Aggregation}
      (hsettings : Settings.ofEnvironment env = .ok settings)
      (h : poolOutcome t settings pool base = .found a) :
      Ends env files t (.aggregation pool base) (.shown a.toJson.pretty)
  /-- The lookup of a pool ends in nothing found. -/
  | noPool {pool : Option String} {base : Option Url} {settings : Settings}
      (hsettings : Settings.ofEnvironment env = .ok settings)
      (h : poolOutcome t settings pool base = .notFound) :
      Ends env files t (.aggregation pool base) .notFound
  /-- The lookup of a pool is invalid. -/
  | badPool {pool : Option String} {base : Option Url} {settings : Settings}
      (hsettings : Settings.ofEnvironment env = .ok settings)
      (h : poolOutcome t settings pool base = .invalid) :
      Ends env files t (.aggregation pool base) .invalid

variable {env : Environment} {files : Files} {t : Transport} {c : Command} {ending : Ending}

/-- Every command ends. -/
theorem exists_ends (env : Environment) (files : Files) (t : Transport) (c : Command) :
    ∃ ending, Ends env files t c ending := by
  cases c with
  | decode width source index =>
    cases hread : source.read files with
    | error cause => exact ⟨_, .unreadable hread⟩
    | ok encoded =>
      cases hvalues : unpackValues width encoded with
      | error cause => exact ⟨_, .undecoded hread hvalues⟩
      | ok values =>
        cases index with
        | none => exact ⟨_, .values hread hvalues⟩
        | some index =>
          by_cases h : index < values.size
          · exact ⟨_, .value hread hvalues h⟩
          · exact ⟨_, .outside hread hvalues h⟩
  | encode width values uri =>
    cases h : packValues width values with
    | error cause => exact ⟨_, .unfit h⟩
    | ok list => exact ⟨_, .claim h⟩
  | fetch reference index base =>
    cases hsettings : Settings.ofEnvironment env with
    | error cause => exact ⟨_, .unsetList hsettings⟩
    | ok settings =>
      cases h : listOutcome t settings reference base with
      | notFound => exact ⟨_, .noList hsettings h⟩
      | invalid => exact ⟨_, .badList hsettings h⟩
      | found d =>
        cases index with
        | none => exact ⟨_, .document hsettings h⟩
        | some index =>
          cases hentry : d.status? index with
          | none => exact ⟨_, .noEntry hsettings h hentry⟩
          | some value => exact ⟨_, .entry hsettings h hentry⟩
  | aggregation pool base =>
    cases hsettings : Settings.ofEnvironment env with
    | error cause => exact ⟨_, .unsetPool hsettings⟩
    | ok settings =>
      cases h : poolOutcome t settings pool base with
      | found a => exact ⟨_, .pool hsettings h⟩
      | notFound => exact ⟨_, .noPool hsettings h⟩
      | invalid => exact ⟨_, .badPool hsettings h⟩

theorem run_fetch_of_settings {settings : Settings}
    (h : Settings.ofEnvironment env = .ok settings) (reference : String) (index : Option UInt32)
    (base : Option Url) :
    ((Command.fetch reference index base).run env files).run t =
      .ofOutcome (renderDocument index) (listOutcome t settings reference base) := by
  rw [run, withSettings, h]
  simp only [fetchWith, Fetching.run_bind, Fetching.run_pure]
  rfl

theorem run_aggregation_of_settings {settings : Settings}
    (h : Settings.ofEnvironment env = .ok settings) (pool : Option String) (base : Option Url) :
    ((Command.aggregation pool base).run env files).run t =
      .ofOutcome (fun found => .ok found.toJson.pretty) (poolOutcome t settings pool base) := by
  rw [run, withSettings, h]
  simp only [aggregationWith, Fetching.run_bind, Fetching.run_pure]
  rfl

/-- The report of a command is that of its ending. -/
theorem Ends.run_eq (h : Ends env files t c ending) :
    (c.run env files).run t = ending.report := by
  cases h with
  | unreadable h =>
    rw [run, runDecode, h]
    rfl
  | undecoded hread h | values hread h =>
    simp only [run, runDecode, hread, h, bind, Except.bind]
    rfl
  | value hread hvalues h =>
    simp only [run, runDecode, hread, hvalues, bind, Except.bind, Except.mapError, dif_pos h]
    rfl
  | outside hread hvalues h =>
    simp only [run, runDecode, hread, hvalues, bind, Except.bind, Except.mapError, dif_neg h]
    rfl
  | unfit h | claim h =>
    rw [run, runEncode, h]
    rfl
  | unsetList h | unsetPool h =>
    rw [run, withSettings, h]
    rfl
  | document hsettings h | noList hsettings h | badList hsettings h =>
    rw [run_fetch_of_settings hsettings, h]
    rfl
  | entry hsettings hfound h | noEntry hsettings hfound h =>
    rw [run_fetch_of_settings hsettings, hfound, Report.ofOutcome, renderDocument]
    simp only [h]
    rfl
  | pool hsettings h | noPool hsettings h | badPool hsettings h =>
    rw [run_aggregation_of_settings hsettings, h]
    rfl

end Command

/-! ## What arguments come to -/

namespace Invocation

/-- Arguments come to a command. -/
def Commands (arguments : List String) (c : Command) : Prop :=
  ofArguments arguments = .ok (.command c)

/-- Arguments come to nothing: they are refused, or there are none. -/
def Refuses (arguments : List String) : Prop :=
  (∃ misuse, ofArguments arguments = .error misuse) ∨
    ofArguments arguments = .ok .nothing

/-- Arguments ask for help or for the version. -/
def Informs (arguments : List String) : Prop :=
  ofArguments arguments = .ok .help ∨ ofArguments arguments = .ok .version

open Command (Ending Ends exists_ends)

variable {env : Environment} {files : Files} {t : Transport} {arguments : List String}
  {c : Command} {ending : Ending}

theorem run_of_commands (h : Commands arguments c) (hends : Ends env files t c ending) :
    (runArguments env files arguments).run t = ending.report := by
  rw [runArguments, h]
  exact hends.run_eq

theorem exit_of_refuses (h : Refuses arguments) :
    ((runArguments env files arguments).run t).exit = 2 := by
  rcases h with ⟨misuse, h⟩ | h
  · rw [runArguments, h]
    rfl
  · rw [runArguments, h]
    rfl

theorem exit_of_informs (h : Informs arguments) :
    ((runArguments env files arguments).run t).exit = 0 := by
  rcases h with h | h
  · rw [runArguments, h]
    rfl
  · rw [runArguments, h]
    rfl

theorem Commands.not_refuses (h : Commands arguments c) : ¬Refuses arguments := by
  rintro (⟨misuse, hrefused⟩ | hnothing)
  · cases h.symm.trans hrefused
  · cases h.symm.trans hnothing

theorem Commands.not_informs (h : Commands arguments c) : ¬Informs arguments := by
  rintro (hhelp | hversion)
  · cases h.symm.trans hhelp
  · cases h.symm.trans hversion

/-- Arguments come to a command, which ends, or they are refused, or ask for help or the version. -/
theorem exists_run_eq (env : Environment) (files : Files) (t : Transport)
    (arguments : List String) :
    (∃ c ending, Commands arguments c ∧ Ends env files t c ending ∧
      (runArguments env files arguments).run t = ending.report) ∨
    Refuses arguments ∨ Informs arguments := by
  cases h : ofArguments arguments with
  | error misuse => exact .inr (.inl (.inl ⟨misuse, h⟩))
  | ok invocation =>
    cases invocation with
    | command c =>
      obtain ⟨ending, hends⟩ := exists_ends env files t c
      exact .inl ⟨c, ending, h, hends, run_of_commands h hends⟩
    | nothing => exact .inr (.inl (.inr h))
    | help => exact .inr (.inr (.inl h))
    | version => exact .inr (.inr (.inr h))

/-! ## What codes tell -/

/-- A lookup that the arguments command ends in nothing found. -/
def FindsNothing (env : Environment) (files : Files) (t : Transport) (arguments : List String) :
    Prop :=
  ∃ c, Commands arguments c ∧ Ends env files t c .notFound

/-- The command of the arguments shows a text, and that is printed. -/
def Shows (env : Environment) (files : Files) (t : Transport) (arguments : List String) : Prop :=
  ∃ c text, Commands arguments c ∧ Ends env files t c (.shown text) ∧
    ((runArguments env files arguments).run t).output = text ++ "\n"

/-- The command of the arguments is invalid or fails. -/
def Fails (env : Environment) (files : Files) (t : Transport) (arguments : List String) : Prop :=
  ∃ c, Commands arguments c ∧
    (Ends env files t c .invalid ∨ ∃ cause, Ends env files t c (.failed cause))

/-- The codes keep apart that nothing was found, that something is shown, and all the rest. -/
structure ExitTells (env : Environment) (files : Files) (t : Transport) (arguments : List String) :
    Prop where
  /-- Two tells that a lookup has found nothing. -/
  two : ((runArguments env files arguments).run t).exit = 2 ↔ FindsNothing env files t arguments
  /-- Zero tells that something is shown. -/
  zero : ((runArguments env files arguments).run t).exit = 0 ↔ Shows env files t arguments
  /-- One tells of neither. -/
  one : ((runArguments env files arguments).run t).exit = 1 ↔
    ¬FindsNothing env files t arguments ∧ ¬Shows env files t arguments

theorem exit_eq_two_iff :
    ((runArguments env files arguments).run t).exit = 2 ↔
      FindsNothing env files t arguments ∨ Refuses arguments := by
  constructor
  · intro hexit
    rcases exists_run_eq env files t arguments with ⟨c, ending, hc, hends, hrun⟩ | hrefuses |
      hinforms
    · rw [hrun] at hexit
      cases ending with
      | notFound => exact .inl ⟨c, hc, hends⟩
      | shown | invalid | failed => cases hexit
    · exact .inr hrefuses
    · rw [exit_of_informs hinforms] at hexit
      cases hexit
  · rintro (⟨c, hc, hends⟩ | hrefuses)
    · rw [run_of_commands hc hends]
      rfl
    · exact exit_of_refuses hrefuses

theorem exit_eq_zero_iff :
    ((runArguments env files arguments).run t).exit = 0 ↔
      Shows env files t arguments ∨ Informs arguments := by
  constructor
  · intro hexit
    rcases exists_run_eq env files t arguments with ⟨c, ending, hc, hends, hrun⟩ | hrefuses |
      hinforms
    · rw [hrun] at hexit
      cases ending with
      | shown text => exact .inl ⟨c, text, hc, hends, by rw [hrun]; rfl⟩
      | notFound | invalid | failed => cases hexit
    · rw [exit_of_refuses hrefuses] at hexit
      cases hexit
    · exact .inr hinforms
  · rintro (⟨c, text, hc, hends, -⟩ | hinforms)
    · rw [run_of_commands hc hends]
      rfl
    · exact exit_of_informs hinforms

theorem exit_eq_one_iff :
    ((runArguments env files arguments).run t).exit = 1 ↔ Fails env files t arguments := by
  constructor
  · intro hexit
    rcases exists_run_eq env files t arguments with ⟨c, ending, hc, hends, hrun⟩ | hrefuses |
      hinforms
    · rw [hrun] at hexit
      cases ending with
      | invalid => exact ⟨c, hc, .inl hends⟩
      | failed cause => exact ⟨c, hc, .inr ⟨cause, hends⟩⟩
      | shown | notFound => cases hexit
    · rw [exit_of_refuses hrefuses] at hexit
      cases hexit
    · rw [exit_of_informs hinforms] at hexit
      cases hexit
  · rintro ⟨c, hc, hends | ⟨cause, hends⟩⟩
    · rw [run_of_commands hc hends]
      rfl
    · rw [run_of_commands hc hends]
      rfl

/-- Of arguments that come to a command the codes tell how it ends. -/
theorem exitTells_of_commands (hc : Commands arguments c) : ExitTells env files t arguments where
  two := exit_eq_two_iff.trans (or_iff_left hc.not_refuses)
  zero := exit_eq_zero_iff.trans (or_iff_left hc.not_informs)
  one := by
    constructor
    · intro hone
      refine ⟨fun hnothing => ?_, fun hshows => ?_⟩
      · rw [exit_eq_two_iff.2 (.inl hnothing)] at hone
        cases hone
      · rw [exit_eq_zero_iff.2 (.inl hshows)] at hone
        cases hone
    · rintro ⟨hnothing, hshows⟩
      obtain ⟨ending, hends⟩ := exists_ends env files t c
      have hrun := run_of_commands hc hends
      rw [hrun]
      cases ending with
      | shown text => exact absurd ⟨c, text, hc, hends, by rw [hrun]; rfl⟩ hshows
      | notFound => exact absurd ⟨c, hc, hends⟩ hnothing
      | invalid | failed => rfl

/-- What the program exits with, whatever the arguments, the environment, the files and what is
    published. The codes tell how a command has ended, and tell it just if there is a command:
    refused arguments have the code of a lookup that has found nothing. -/
theorem exits_tell_iff (env : Environment) (files : Files) (t : Transport)
    (arguments : List String) :
    let exit := ((runArguments env files arguments).run t).exit
    (exit = 2 ↔ FindsNothing env files t arguments ∨ Refuses arguments) ∧
    (exit = 0 ↔ Shows env files t arguments ∨ Informs arguments) ∧
    (exit = 1 ↔ Fails env files t arguments) ∧
    (ExitTells env files t arguments ↔ ∃ c, Commands arguments c) := by
  refine ⟨exit_eq_two_iff, exit_eq_zero_iff, exit_eq_one_iff, fun htells => ?_,
    fun ⟨c, hc⟩ => exitTells_of_commands hc⟩
  rcases exists_run_eq env files t arguments with ⟨c, _, hc, -⟩ | hrefuses | hinforms
  · exact ⟨c, hc⟩
  · obtain ⟨c, hc, -⟩ := htells.two.1 (exit_of_refuses hrefuses)
    exact ⟨c, hc⟩
  · obtain ⟨c, _, hc, -⟩ := htells.zero.1 (exit_of_informs hinforms)
    exact ⟨c, hc⟩

/-- Three bits are no width, and the program exits as if a lookup had found nothing. -/
theorem refused_width_exits_with_two :
    let env : Environment := fun _ => none
    let files : Files := fun _ => .error .missing
    let t : Transport := fun url => .error (.unreachable url "refused")
    let arguments := ["decode", "--bits", "3", "--lst", "eNrbuRgAAhcBXQ"]
    ¬Informs arguments ∧
    (runArguments env files arguments).run t =
      ⟨2, "", some "error: '3' is no value for 'bits'"⟩ ∧
    ¬FindsNothing env files t arguments ∧
    ¬ExitTells env files t arguments := by
  intro env files t arguments
  have hrefused : ofArguments arguments = .error (.badValue "bits" "3") := by
    decide +kernel
  have hnothing : ¬FindsNothing env files t arguments := by
    rintro ⟨c, hc, -⟩
    cases hc.symm.trans hrefused
  refine ⟨?_, by rw [runArguments, hrefused]; rfl, hnothing, fun htells => ?_⟩
  · rintro (h | h)
    · cases h.symm.trans hrefused
    · cases h.symm.trans hrefused
  · exact hnothing (htells.two.1 (exit_of_refuses (.inl ⟨_, hrefused⟩)))

end Invocation

end StatusList
