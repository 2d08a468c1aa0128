import LatencyAnalyzer.CommandLine.Options

/-!
# Grammar — command lines without an index

An option stands alone or takes the argument after it.  `Parses`, `ErrorIn` and `HelpIn` read a
command line from left to right in these groups; the loop with its index does what they say.
-/

namespace LatencyAnalyzer
namespace CommandLine

open Cxx

section Grammar

variable {abi : Abi}

/-! ## Command lines as groups -/

def OptionKind.takesValue : OptionKind abi → Bool
  | .help | .flag _ => false
  | .int _ _ | .sizeMib _ | .file _ => true

/-- The argument after the option assigns a variable. -/
inductive OptionKind.Assigns : OptionKind abi → Text → Settings abi → Settings abi → Prop
  | int {set : Int → Settings abi → Settings abi} {accepts : Int → Bool} {text : Text} {value : Int}
      {s : Settings abi} (htext : Text.IntText text value) (haccepts : accepts value = true) :
      Assigns (.int set accepts) text s (set value s)
  | sizeMib {set : SizeT abi → Settings abi → Settings abi} {text : Text} {value : Int}
      {s : Settings abi} (htext : Text.IntText text value) (hpos : 0 < value) :
      Assigns (.sizeMib set) text s (set (mibToBytes abi value) s)
  | file {set : Text → Settings abi → Settings abi} {text : Text} {s : Settings abi} :
      Assigns (.file set) text s (set text s)

/-- The argument after the option is one that the option itself accepts. -/
def OptionKind.Valid : OptionKind abi → Text → Prop
  | .int _ accepts, text => ∃ value, Text.IntText text value ∧ accepts value = true
  | .sizeMib _, text => ∃ value, Text.IntText text value ∧ 0 < value
  | .file _, _ => True
  | .help, _ | .flag _, _ => False

/-- The command line consists of groups without error and help, and they turn `s` into `s'`. -/
inductive Parses : List Text → Settings abi → Settings abi → Prop
  | nil {s : Settings abi} : Parses [] s s
  | flag {name : OptionName} {set : Settings abi → Settings abi} {rest : List Text}
      {s s' : Settings abi} (hkind : name.kind = .flag set) (hrest : Parses rest (set s) s') :
      Parses (name.arg :: rest) s s'
  | value {name : OptionName} {text : Text} {rest : List Text} {s s₁ s' : Settings abi}
      (hassigns : name.kind.Assigns text s s₁) (hrest : Parses rest s₁ s') :
      Parses (name.arg :: text :: rest) s s'

/-- A group of the command line is in error, and no help stands before it.  `valid` says which
values an option may have. -/
inductive ErrorIn (abi : Abi) (valid : OptionName → Text → Prop) : List Text → Prop
  | unknown {arg : Text} {rest : List Text} (hunknown : ∀ name : OptionName, name.arg ≠ arg) :
      ErrorIn abi valid (arg :: rest)
  | missing {name : OptionName} (htakes : (@OptionName.kind abi name).takesValue = true) :
      ErrorIn abi valid [name.arg]
  | invalid {name : OptionName} {text : Text} {rest : List Text}
      (htakes : (@OptionName.kind abi name).takesValue = true) (hinvalid : ¬ valid name text) :
      ErrorIn abi valid (name.arg :: text :: rest)
  | afterFlag {name : OptionName} {set : Settings abi → Settings abi} {rest : List Text}
      (hkind : name.kind = .flag set) (hrest : ErrorIn abi valid rest) :
      ErrorIn abi valid (name.arg :: rest)
  | afterValue {name : OptionName} {text : Text} {rest : List Text}
      (htakes : (@OptionName.kind abi name).takesValue = true) (hrest : ErrorIn abi valid rest) :
      ErrorIn abi valid (name.arg :: text :: rest)

/-- The first group that is not well formed is `--help`. -/
inductive HelpIn (abi : Abi) : List Text → Prop
  | here {rest : List Text} : HelpIn abi (OptionName.arg .help :: rest)
  | afterFlag {name : OptionName} {set : Settings abi → Settings abi} {rest : List Text}
      (hkind : name.kind = .flag set) (hrest : HelpIn abi rest) : HelpIn abi (name.arg :: rest)
  | afterValue {name : OptionName} {text : Text} {rest : List Text}
      (hvalid : (@OptionName.kind abi name).Valid text) (hrest : HelpIn abi rest) :
      HelpIn abi (name.arg :: text :: rest)

/-- The values that the options themselves accept. -/
def checkedAtOption (abi : Abi) (name : OptionName) (text : Text) : Prop :=
  (@OptionName.kind abi name).Valid text

/-! ## Looking up and reading -/

theorem lookup_arg (name : OptionName) : OptionName.lookup name.arg = some name := by
  cases name <;> decide

theorem lookup_unknown {arg : Text} (h : ∀ name : OptionName, name.arg ≠ arg) :
    OptionName.lookup arg = none := by
  unfold OptionName.lookup
  rw [List.find?_eq_none]
  intro name _
  simpa using h name

theorem parseInt_eq_some_iff {text : Text} {value : Int} :
    parseInt text = some value ↔ Text.IntText text value := by
  rw [← Text.fromChars_eq_ok_nil_iff]
  unfold parseInt
  by_cases hnil : text = []
  · subst hnil
    simp [Text.fromChars, Text.takeMinus]
  · rw [if_neg hnil]
    cases Text.fromChars text with
    | invalidArgument => simp
    | outOfRange rest => simp
    | ok v rest =>
        by_cases hrest : rest = []
        · simp [hrest]
        · simp [hrest]

/-- The entry at the index, and what is left behind it. -/
theorem getElem?_of_drop {argv rest : List Text} {arg : Text} {i : Nat}
    (h : argv.drop i = arg :: rest) :
    i < argv.length ∧ argv[i]? = some arg ∧ argv.drop (i + 1) = rest ∧
      argv.length = i + 1 + rest.length := by
  have hlength : argv.length - i = rest.length + 1 := by
    rw [← List.length_drop, h, List.length_cons]
  have hget : (argv.drop i)[0]? = argv[i]? := by rw [List.getElem?_drop, Nat.add_zero]
  refine ⟨by omega, ?_, ?_, by omega⟩
  · rw [← hget, h]
    rfl
  · rw [← List.drop_drop, h]
    rfl

theorem consumeInt_of_drop {argv rest : List Text} {arg text : Text} {i : Nat}
    (h : argv.drop i = arg :: text :: rest) :
    consumeInt argv i =
      match parseInt text with
      | none => .failed
      | some value => .value value (i + 1) := by
  rcases getElem?_of_drop h with ⟨_, _, hdrop, hlength⟩
  rcases getElem?_of_drop hdrop with ⟨hlt, hget, _, _⟩
  have hnot : ¬ argv.length ≤ i + 1 := by omega
  cases hparse : parseInt text <;> simp [consumeInt, hnot, hget, hparse]

theorem consumeInt_of_missing {argv : List Text} {arg : Text} {i : Nat}
    (h : argv.drop i = [arg]) : consumeInt argv i = .failed := by
  rcases getElem?_of_drop h with ⟨_, _, _, hlength⟩
  unfold consumeInt
  rw [if_pos (by rw [hlength]; simp)]

/-! ## One iteration -/

theorem optionStep_of_drop {argv rest : List Text} {name : OptionName} {i : Nat}
    (h : argv.drop i = name.arg :: rest) (s : Settings abi) :
    optionStep argv i s = optionBranch argv i name s := by
  simp only [optionStep, (getElem?_of_drop h).2.1, lookup_arg]

theorem optionStep_assigns {argv rest : List Text} {name : OptionName} {text : Text} {i : Nat}
    {s s₁ : Settings abi} (h : argv.drop i = name.arg :: text :: rest)
    (hassigns : name.kind.Assigns text s s₁) : optionStep argv i s = .next (i + 1) s₁ := by
  have hconsume := consumeInt_of_drop h
  rw [optionStep_of_drop h, optionBranch]
  generalize hkind : (@OptionName.kind abi name) = kind at hassigns
  cases hassigns with
  | int htext haccepts =>
      rw [parseInt_eq_some_iff.2 htext] at hconsume
      simp [hconsume, haccepts]
  | @sizeMib _ _ value _ htext hpos =>
      rw [parseInt_eq_some_iff.2 htext] at hconsume
      have hnot : ¬ value ≤ 0 := by omega
      simp [consumeSizeMib, hconsume, hnot]
  | file =>
      rcases getElem?_of_drop h with ⟨_, _, hdrop, _⟩
      rcases getElem?_of_drop hdrop with ⟨hlt, hget, _, _⟩
      have hnot : ¬ argv.length ≤ i + 1 := by omega
      simp [hget, hnot]

/-- A value the option does not accept ends the loop. -/
theorem optionStep_invalid {argv rest : List Text} {name : OptionName} {text : Text} {i : Nat}
    (h : argv.drop i = name.arg :: text :: rest)
    (htakes : (@OptionName.kind abi name).takesValue = true)
    (hinvalid : ¬ checkedAtOption abi name text) (s : Settings abi) :
    optionStep argv i s = invalidValue name := by
  have hconsume := consumeInt_of_drop h
  rw [optionStep_of_drop h, optionBranch]
  unfold checkedAtOption at hinvalid
  generalize (@OptionName.kind abi name) = kind at htakes hinvalid
  cases kind with
  | help => cases htakes
  | flag set => cases htakes
  | int set accepts =>
      cases hparse : parseInt text with
      | none =>
          rw [hparse] at hconsume
          simp [hconsume]
      | some value =>
          rw [hparse] at hconsume
          -- A number that the option refuses; for any other text the conversion fails.
          have hrefuses : accepts value = false := by
            by_contra haccepts
            exact hinvalid ⟨value, parseInt_eq_some_iff.1 hparse, by simpa using haccepts⟩
          simp [hconsume, hrefuses]
  | sizeMib set =>
      cases hparse : parseInt text with
      | none =>
          rw [hparse] at hconsume
          simp [consumeSizeMib, hconsume]
      | some value =>
          rw [hparse] at hconsume
          have hle : value ≤ 0 := by
            by_contra hpos
            exact hinvalid ⟨value, parseInt_eq_some_iff.1 hparse, by omega⟩
          simp [consumeSizeMib, hconsume, hle]
  | file set => exact absurd trivial hinvalid

/-- An option at the end of the command line misses its value. -/
theorem optionStep_missing {argv : List Text} {name : OptionName} {i : Nat}
    (h : argv.drop i = [name.arg])
    (htakes : (@OptionName.kind abi name).takesValue = true) (s : Settings abi) :
    ∃ message, optionStep argv i s = .stop (.rejected message) := by
  have hconsume := consumeInt_of_missing h
  rw [optionStep_of_drop h, optionBranch]
  generalize (@OptionName.kind abi name) = kind at htakes
  cases kind with
  | help => cases htakes
  | flag set => cases htakes
  | int set accepts => exact ⟨_, by simp only [hconsume]; rfl⟩
  | sizeMib set => exact ⟨_, by simp only [consumeSizeMib, hconsume]; rfl⟩
  | file set =>
      have hlength := (getElem?_of_drop h).2.2.2
      exact ⟨_, if_pos (by rw [hlength]; simp)⟩

/-- `consume_int` fails, or reads a number from the next argument. -/
theorem consumeInt_cases (argv : List Text) (i : Nat) :
    consumeInt argv i = .failed ∨
      ∃ text value, Text.IntText text value ∧ consumeInt argv i = .value value (i + 1) := by
  unfold consumeInt
  by_cases hlast : i + 1 ≥ argv.length
  · exact Or.inl (if_pos hlast)
  · rw [if_neg hlast]
    cases hget : argv[i + 1]? with
    | none => exact absurd (List.getElem?_eq_none_iff.1 hget) hlast
    | some text =>
        dsimp only
        cases hparse : parseInt text with
        | none => exact Or.inl rfl
        | some value => exact Or.inr ⟨text, value, parseInt_eq_some_iff.1 hparse, rfl⟩

/-- What one option can do: ask for help, set a flag, assign a value, or end in a message. -/
theorem optionBranch_cases (argv : List Text) (i : Nat) (name : OptionName) (s : Settings abi) :
    optionBranch argv i name s = .stop .help ∨
      (∃ set, name.kind = .flag set ∧ optionBranch argv i name s = .next i (set s)) ∨
      (∃ text s₁, name.kind.Assigns text s s₁ ∧
        optionBranch argv i name s = .next (i + 1) s₁) ∨
      ∃ message, optionBranch argv i name s = .stop (.rejected message) := by
  have hinvalid : ∃ message, (invalidValue name : Step abi) = .stop (.rejected message) :=
    ⟨_, rfl⟩
  rcases hinvalid with ⟨message, hinvalid⟩
  unfold optionBranch
  cases hkind : (@OptionName.kind abi name) with
  | help => exact Or.inl rfl
  | flag set => exact Or.inr (Or.inl ⟨set, rfl, rfl⟩)
  | int set accepts =>
      rcases consumeInt_cases argv i with hfailed | ⟨text, value, htext, hvalue⟩
      · exact Or.inr (Or.inr (Or.inr ⟨message, by simp only [hfailed, hinvalid]⟩))
      · cases haccepts : accepts value with
        | true =>
            refine Or.inr (Or.inr (Or.inl ⟨text, _, .int htext haccepts, ?_⟩))
            simp only [hvalue, haccepts, if_true]
        | false =>
            refine Or.inr (Or.inr (Or.inr ⟨message, ?_⟩))
            simp only [hvalue, haccepts, Bool.false_eq_true, if_false, hinvalid]
  | sizeMib set =>
      rcases consumeInt_cases argv i with hfailed | ⟨text, value, htext, hvalue⟩
      · exact Or.inr (Or.inr (Or.inr ⟨message, by simp only [consumeSizeMib, hfailed, hinvalid]⟩))
      · by_cases hpos : value ≤ 0
        · refine Or.inr (Or.inr (Or.inr ⟨message, ?_⟩))
          simp only [consumeSizeMib, hvalue, if_pos hpos, hinvalid]
        · refine Or.inr (Or.inr (Or.inl ⟨text, _, .sizeMib htext (not_le.1 hpos), ?_⟩))
          simp only [consumeSizeMib, hvalue, if_neg hpos]
  | file set =>
      by_cases hlast : i + 1 ≥ argv.length
      · exact Or.inr (Or.inr (Or.inr ⟨_, if_pos hlast⟩))
      · cases hget : argv[i + 1]? with
        | none => exact absurd (List.getElem?_eq_none_iff.1 hget) hlast
        | some path =>
            refine Or.inr (Or.inr (Or.inl ⟨path, _, .file, ?_⟩))
            simp only [if_neg hlast]

/-! ## The loop -/

theorem optionLoop_stop {argv : List Text} {i : Nat} {s : Settings abi} {outcome : Outcome abi}
    (hlt : i < argv.length) (h : optionStep argv i s = .stop outcome) :
    optionLoop argv i s = outcome := by
  rw [optionLoop, if_pos hlt]
  split
  · rename_i heq
    rw [h] at heq
    cases heq
    rfl
  · rename_i heq
    rw [h] at heq
    cases heq

theorem optionLoop_next {argv : List Text} {i j : Nat} {s s' : Settings abi}
    (hlt : i < argv.length) (h : optionStep argv i s = .next j s') :
    optionLoop argv i s = optionLoop argv (j + 1) s' := by
  rw [optionLoop, if_pos hlt]
  split
  · rename_i heq
    rw [h] at heq
    cases heq
  · rename_i heq
    rw [h] at heq
    cases heq
    rfl

theorem optionLoop_end {argv : List Text} {i : Nat} (h : argv.drop i = []) (s : Settings abi) :
    optionLoop argv i s = .parsed s := by
  have hle : argv.length ≤ i := List.drop_eq_nil_iff.1 h
  rw [optionLoop, if_neg (by omega)]

theorem optionBranch_ne_parsed (argv : List Text) (i : Nat) (name : OptionName)
    (s s' : Settings abi) : optionBranch argv i name s ≠ .stop (.parsed s') := by
  rcases optionBranch_cases argv i name s with
    hbranch | ⟨_, _, hbranch⟩ | ⟨_, _, _, hbranch⟩ | ⟨_, hbranch⟩
  all_goals
    rw [hbranch]
    intro heq
    cases heq

/-- No iteration ends the loop with settings. -/
theorem optionStep_ne_parsed (argv : List Text) (i : Nat) (s s' : Settings abi) :
    optionStep argv i s ≠ .stop (.parsed s') := by
  intro heq
  unfold optionStep at heq
  split at heq
  · cases heq
  · split at heq
    · cases heq
    · exact optionBranch_ne_parsed argv i _ s s' heq

/-- What holds of the settings before the loop and is kept by every iteration holds after it. -/
theorem optionLoop_invariant {argv : List Text} {P : Settings abi → Prop}
    (hstep : ∀ {i j s s'}, optionStep argv i s = .next j s' → P s → P s') {i : Nat}
    {s s' : Settings abi} (hs : P s) (h : optionLoop argv i s = .parsed s') : P s' := by
  -- The loop ends in its last case only; the other outcomes of a step are no settings.
  induction i, s using optionLoop.induct argv with
  | case1 i s hlt outcome heq =>
      rw [optionLoop_stop hlt heq] at h
      subst h
      exact absurd heq (optionStep_ne_parsed argv i s s')
  | case2 i s hlt j s₁ heq ih =>
      rw [optionLoop_next hlt heq] at h
      exact ih (hstep heq hs) h
  | case3 i s hge =>
      rw [optionLoop, if_neg hge] at h
      cases h
      exact hs

/-! ## The loop follows the grammar -/

theorem assigns_of_valid {kind : OptionKind abi} {text : Text} (h : kind.Valid text)
    (s : Settings abi) : ∃ s₁, kind.Assigns text s s₁ := by
  cases kind with
  | help => exact h.elim
  | flag set => exact h.elim
  | int set accepts =>
      rcases h with ⟨value, htext, haccepts⟩
      exact ⟨_, .int htext haccepts⟩
  | sizeMib set =>
      rcases h with ⟨value, htext, hpos⟩
      exact ⟨_, .sizeMib htext hpos⟩
  | file set => exact ⟨_, .file⟩

theorem optionStep_flag {argv rest : List Text} {name : OptionName} {i : Nat}
    {set : Settings abi → Settings abi} (h : argv.drop i = name.arg :: rest)
    (hkind : name.kind = .flag set) (s : Settings abi) :
    optionStep argv i s = .next i (set s) := by
  rw [optionStep_of_drop h, optionBranch, hkind]

theorem optionLoop_of_parses {args : List Text} {s s' : Settings abi} (h : Parses args s s') :
    ∀ {argv : List Text} {i : Nat}, argv.drop i = args → optionLoop argv i s = .parsed s' := by
  -- The induction is on the groups: a flag moves the index by one, a value by two.
  induction h with
  | nil =>
      intro argv i hdrop
      exact optionLoop_end hdrop _
  | flag hkind _ ih =>
      intro argv i hdrop
      rcases getElem?_of_drop hdrop with ⟨hlt, _, hrest, _⟩
      rw [optionLoop_next hlt (optionStep_flag hdrop hkind _)]
      exact ih hrest
  | value hassigns _ ih =>
      intro argv i hdrop
      rcases getElem?_of_drop hdrop with ⟨hlt, _, hdrop', _⟩
      rcases getElem?_of_drop hdrop' with ⟨_, _, hrest, _⟩
      rw [optionLoop_next hlt (optionStep_assigns hdrop hassigns)]
      exact ih hrest

theorem optionLoop_of_errorIn {args : List Text}
    (h : ErrorIn abi (checkedAtOption abi) args) :
    ∀ {argv : List Text} {i : Nat} (s : Settings abi), argv.drop i = args →
      ∃ message, optionLoop argv i s = .rejected message := by
  induction h with
  | @unknown arg rest hunknown =>
      intro argv i s hdrop
      rcases getElem?_of_drop hdrop with ⟨hlt, hget, _, _⟩
      refine ⟨"Unknown option: ".toList ++ arg ++ "\n".toList, optionLoop_stop hlt ?_⟩
      simp only [optionStep, hget, lookup_unknown hunknown]
  | missing htakes =>
      intro argv i s hdrop
      rcases getElem?_of_drop hdrop with ⟨hlt, _, _, _⟩
      rcases optionStep_missing hdrop htakes s with ⟨message, hstep⟩
      exact ⟨message, optionLoop_stop hlt hstep⟩
  | invalid htakes hinvalid =>
      intro argv i s hdrop
      rcases getElem?_of_drop hdrop with ⟨hlt, _, _, _⟩
      exact ⟨_, optionLoop_stop hlt (optionStep_invalid hdrop htakes hinvalid s)⟩
  | afterFlag hkind _ ih =>
      intro argv i s hdrop
      rcases getElem?_of_drop hdrop with ⟨hlt, _, hrest, _⟩
      rw [optionLoop_next hlt (optionStep_flag hdrop hkind s)]
      exact ih _ hrest
  | @afterValue name text rest htakes _ ih =>
      intro argv i s hdrop
      rcases getElem?_of_drop hdrop with ⟨hlt, _, hdrop', _⟩
      rcases getElem?_of_drop hdrop' with ⟨_, _, hrest, _⟩
      -- The value before the error may be invalid itself, and then the loop ends here.
      by_cases hvalid : checkedAtOption abi name text
      · rcases assigns_of_valid hvalid s with ⟨s₁, hassigns⟩
        rw [optionLoop_next hlt (optionStep_assigns hdrop hassigns)]
        exact ih _ hrest
      · exact ⟨_, optionLoop_stop hlt (optionStep_invalid hdrop htakes hvalid s)⟩

theorem optionLoop_of_helpIn {args : List Text} (h : HelpIn abi args) :
    ∀ {argv : List Text} {i : Nat} (s : Settings abi), argv.drop i = args →
      optionLoop argv i s = .help := by
  induction h with
  | here =>
      intro argv i s hdrop
      rcases getElem?_of_drop hdrop with ⟨hlt, _, _, _⟩
      exact optionLoop_stop hlt (optionStep_of_drop hdrop s)
  | afterFlag hkind _ ih =>
      intro argv i s hdrop
      rcases getElem?_of_drop hdrop with ⟨hlt, _, hrest, _⟩
      rw [optionLoop_next hlt (optionStep_flag hdrop hkind s)]
      exact ih _ hrest
  | afterValue hvalid _ ih =>
      intro argv i s hdrop
      rcases getElem?_of_drop hdrop with ⟨hlt, _, hdrop', _⟩
      rcases getElem?_of_drop hdrop' with ⟨_, _, hrest, _⟩
      rcases assigns_of_valid hvalid s with ⟨s₁, hassigns⟩
      rw [optionLoop_next hlt (optionStep_assigns hdrop hassigns)]
      exact ih _ hrest

theorem known_or_unknown (arg : Text) :
    (∃ name : OptionName, arg = name.arg) ∨ ∀ name : OptionName, name.arg ≠ arg := by
  by_cases h : ∃ name : OptionName, arg = name.arg
  · exact Or.inl h
  · exact Or.inr fun name heq => h ⟨name, heq.symm⟩

theorem kind_cases (kind : OptionKind abi) :
    kind = .help ∨ (∃ set, kind = .flag set) ∨ kind.takesValue = true := by
  cases kind <;> simp [OptionKind.takesValue]

theorem eq_help_of_kind {name : OptionName} (h : (@OptionName.kind abi name) = .help) :
    name = .help := by
  cases name <;> first
    | rfl
    | cases h

/-- Every command line is well formed, in error, or asks for help first. -/
theorem command_line_cases (abi : Abi) : ∀ (args : List Text) (s : Settings abi),
    (∃ s', Parses args s s') ∨ ErrorIn abi (checkedAtOption abi) args ∨ HelpIn abi args
  | [], s => Or.inl ⟨s, .nil⟩
  | [arg], s => by
      rcases known_or_unknown arg with ⟨name, rfl⟩ | hunknown
      · rcases kind_cases (@OptionName.kind abi name) with hhelp | ⟨set, hflag⟩ | htakes
        · rw [eq_help_of_kind hhelp]
          exact Or.inr (Or.inr .here)
        · exact Or.inl ⟨set s, .flag hflag .nil⟩
        · exact Or.inr (Or.inl (.missing htakes))
      · exact Or.inr (Or.inl (.unknown hunknown))
  | arg :: text :: rest, s => by
      rcases known_or_unknown arg with ⟨name, rfl⟩ | hunknown
      · rcases kind_cases (@OptionName.kind abi name) with hhelp | ⟨set, hflag⟩ | htakes
        · rw [eq_help_of_kind hhelp]
          exact Or.inr (Or.inr .here)
        · rcases command_line_cases abi (text :: rest) (set s) with ⟨s', hparses⟩ | herror | hhelp
          · exact Or.inl ⟨s', .flag hflag hparses⟩
          · exact Or.inr (Or.inl (.afterFlag hflag herror))
          · exact Or.inr (Or.inr (.afterFlag hflag hhelp))
        -- The settings go on from the value, so the case on the value comes first.
        · by_cases hvalid : checkedAtOption abi name text
          · rcases assigns_of_valid hvalid s with ⟨s₁, hassigns⟩
            rcases command_line_cases abi rest s₁ with ⟨s', hparses⟩ | herror | hhelp
            · exact Or.inl ⟨s', .value hassigns hparses⟩
            · exact Or.inr (Or.inl (.afterValue htakes herror))
            · exact Or.inr (Or.inr (.afterValue hvalid hhelp))
          · exact Or.inr (Or.inl (.invalid htakes hvalid))
      · exact Or.inr (Or.inl (.unknown hunknown))

/-! ## Accesses to `argv` -/

theorem optionBranch_in_bounds (argv : List Text) (i : Nat) (name : OptionName)
    (s : Settings abi) : optionBranch argv i name s ≠ .stop .outOfBounds := by
  rcases optionBranch_cases argv i name s with
    hbranch | ⟨_, _, hbranch⟩ | ⟨_, _, _, hbranch⟩ | ⟨_, hbranch⟩
  all_goals
    rw [hbranch]
    intro heq
    cases heq

theorem optionLoop_in_bounds (argv : List Text) (i : Nat) (s : Settings abi) :
    optionLoop argv i s ≠ .outOfBounds := by
  induction i, s using optionLoop.induct argv with
  | case1 i s hlt outcome heq =>
      rw [optionLoop_stop hlt heq]
      -- The loop condition covers its own access, the branch covers the next one.
      rintro rfl
      unfold optionStep at heq
      split at heq
      · rename_i hget
        exact absurd hlt (Nat.not_lt.2 (List.getElem?_eq_none_iff.1 hget))
      · split at heq
        · cases heq
        · exact optionBranch_in_bounds argv i _ s heq
  | case2 i s hlt j s₁ heq ih =>
      rw [optionLoop_next hlt heq]
      exact ih
  | case3 i s hge =>
      rw [optionLoop, if_neg hge]
      intro heq
      cases heq

end Grammar

end CommandLine
end LatencyAnalyzer
