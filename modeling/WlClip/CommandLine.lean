import WlClip.GlobalOptions
import WlClip.ProtocolsCommand

/-!
# Command lines

`main` of `main.cpp`, and the language of the command lines that it understands: what stands for
which options, and where.
-/

open ScriptedProgram ScriptedProgram.Prog

namespace WlClip

open Options

/-! ## The arguments of a copy -/

namespace CopyCommand

inductive Flag
  | trimNewline
  | oneshot
  | clear
  | foreground
  | sync
  deriving DecidableEq

namespace Flag

def shortName : Flag → Text
  | trimNewline => text "-n"
  | oneshot => text "-o"
  | clear => text "-c"
  | foreground => text "-f"
  | sync => text "-s"

def longName : Flag → Text
  | trimNewline => text "--trim-newline"
  | oneshot => text "--oneshot"
  | clear => text "--clear"
  | foreground => text "--foreground"
  | sync => text "--sync"

def set (o : CopyOpts) : Flag → CopyOpts
  | trimNewline => { o with trimNewline := true }
  | oneshot => { o with oneshot := true }
  | clear => { o with clear := true }
  | foreground => { o with foreground := true }
  | sync => { o with syncWait := true }

end Flag

/-- An option of a copy, or an operand. -/
inductive Argument
  | type (long : Bool) (mime : Text)
  | flag (f : Flag) (long : Bool)
  | syncTimeout (v : Text) (ms : Int) (h : stoi v = some ms)
  | operand (a : Text) (h : a.head? ≠ some 0x2D)

namespace Argument

def spell : Argument → List Text
  | type long mime => [if long then text "--type" else text "-t", mime]
  | flag f long => [if long then f.longName else f.shortName]
  | syncTimeout v _ _ => [text "--sync-timeout", v]
  | operand a _ => [a]

def apply (o : CopyOpts) : Argument → CopyOpts
  | type _ mime => { o with mimeTypes := o.mimeTypes ++ [mime] }
  | flag f _ => f.set o
  | syncTimeout _ ms _ => { o with syncTimeoutMs := ms.toNat }
  | operand a _ => { o with rest := o.rest ++ [a] }

theorem spell_ne_nil (w : Argument) : w.spell ≠ [] := by cases w <;> simp [spell]

end Argument

/-- An argument that begins with no dash is none of the options. -/
theorem operand_ne {a : Text} (h : a.head? ≠ some 0x2D) {s : Text} (hs : s.head? = some 0x2D) :
    a ≠ s := by
  rintro rfl
  exact h hs

theorem parse_spell (w : Argument) (rest : List Text) (o : CopyOpts) :
    parse (w.spell ++ rest) o = parse rest (w.apply o) := by
  rw [parse.eq_def]
  cases w with
  | type long mime => cases long <;> rfl
  | flag f long => cases f <;> cases long <;> rfl
  | syncTimeout v ms h =>
      dsimp only [Argument.spell, List.cons_append, List.nil_append]
      iterate 6 rw [if_neg (by decide)]
      rw [if_pos rfl, h]
      rfl
  | operand a h =>
      have hne : ∀ {s : Text}, s.head? = some 0x2D → a ≠ s := operand_ne h
      dsimp only [Argument.spell, List.cons_append, List.nil_append]
      iterate 6 rw [if_neg (not_or.mpr ⟨hne rfl, hne rfl⟩)]
      rw [if_neg (hne rfl), if_neg (not_or.mpr ⟨hne rfl, hne rfl⟩), if_neg (hne rfl), if_neg h]
      rfl

/-- What is understood behind the options and operands: nothing more, or further operands. -/
theorem parse_finish {args : List Text} (h : ¬ Words.Begins Argument.spell args) {o o' : CopyOpts}
    (hparse : parse args o = some o') :
    args = [] ∧ o' = o ∨ ∃ operands, args = text "--" :: operands ∧
      o' = { o with rest := o.rest ++ operands } := by
  rw [parse.eq_def] at hparse
  rcases args with _ | ⟨a, args⟩
  · cases hparse
    exact .inl ⟨rfl, rfl⟩
  have hword : ∀ (w : Argument) rest, a :: args ≠ w.spell ++ rest := fun w rest heq => h ⟨w, rest, heq⟩
  have hflag : ∀ f : Flag, ¬ (a = f.shortName ∨ a = f.longName) := by
    rintro f (rfl | rfl)
    · exact hword (.flag f false) args rfl
    · exact hword (.flag f true) args rfl
  have hnewline : ¬ (a = text "-n" ∨ a = text "--trim-newline") := hflag .trimNewline
  have honeshot : ¬ (a = text "-o" ∨ a = text "--oneshot") := hflag .oneshot
  have hclear : ¬ (a = text "-c" ∨ a = text "--clear") := hflag .clear
  have hforeground : ¬ (a = text "-f" ∨ a = text "--foreground") := hflag .foreground
  have hsync : ¬ (a = text "-s" ∨ a = text "--sync") := hflag .sync
  dsimp only at hparse
  by_cases htype : a = text "-t" ∨ a = text "--type"
  · rw [if_pos htype] at hparse
    rcases args with _ | ⟨v, args⟩
    · cases hparse
    · rcases htype with rfl | rfl
      · exact absurd rfl (hword (.type false v) args)
      · exact absurd rfl (hword (.type true v) args)
  rw [if_neg htype, if_neg hnewline, if_neg honeshot, if_neg hclear, if_neg hforeground,
    if_neg hsync] at hparse
  by_cases htimeout : a = text "--sync-timeout"
  · rw [if_pos htimeout] at hparse
    rcases args with _ | ⟨v, args⟩
    · cases hparse
    · rcases hms : stoi v with _ | ms
      · simp only [hms] at hparse
        cases hparse
      · subst htimeout
        exact absurd rfl (hword (.syncTimeout v ms hms) args)
  rw [if_neg htimeout] at hparse
  split_ifs at hparse with hhelp hrest hdash
  · cases hparse
    exact .inr ⟨args, by rw [hrest], rfl⟩
  · exact absurd rfl (hword (.operand a hdash) args)

/-- The arguments that are understood are options and operands, and behind a double dash anything. -/
theorem parse_iff {args : List Text} {o o' : CopyOpts} :
    parse args o = some o' ↔ ∃ words : List Argument,
      args = words.flatMap Argument.spell ∧ o' = words.foldl Argument.apply o ∨
      ∃ operands, args = words.flatMap Argument.spell ++ text "--" :: operands ∧
        o' = { words.foldl Argument.apply o with
          rest := (words.foldl Argument.apply o).rest ++ operands } := by
  constructor
  · rw [Words.read_iff Argument.spell_ne_nil parse_spell]
    rintro ⟨words, rest, rfl, hrest, hparse⟩
    rcases parse_finish hrest hparse with ⟨rfl, rfl⟩ | ⟨operands, rfl, rfl⟩
    · exact ⟨words, .inl ⟨List.append_nil _, rfl⟩⟩
    · exact ⟨words, .inr ⟨operands, rfl, rfl⟩⟩
  · rintro ⟨words, ⟨rfl, rfl⟩ | ⟨operands, rfl, rfl⟩⟩
    · have hread := Words.read_words parse_spell words [] o
      rwa [List.append_nil] at hread
    · rw [Words.read_words parse_spell, parse.eq_def]
      rfl

end CopyCommand

/-! ## The arguments of the other commands -/

namespace PasteCommand

/-- An option of a paste. -/
inductive Argument
  | type (long : Bool) (mime : Text)
  | listTypes (long : Bool)
  | noNewline (long : Bool)

namespace Argument

def spell : Argument → List Text
  | type long mime => [if long then text "--type" else text "-t", mime]
  | listTypes long => [if long then text "--list-types" else text "-l"]
  | noNewline long => [if long then text "--no-newline" else text "-n"]

def apply (o : PasteOpts) : Argument → PasteOpts
  | type _ mime => { o with type := mime }
  | listTypes _ => { o with listTypes := true }
  | noNewline _ => { o with noNewline := true }

theorem spell_ne_nil (w : Argument) : w.spell ≠ [] := by cases w <;> simp [spell]

end Argument

theorem parse_spell (w : Argument) (rest : List Text) (o : PasteOpts) :
    parse (w.spell ++ rest) o = parse rest (w.apply o) := by
  rw [parse.eq_def]
  cases w with
  | type long mime => cases long <;> rfl
  | listTypes long => cases long <;> rfl
  | noNewline long => cases long <;> rfl

theorem parse_finish {args : List Text} (h : ¬ Words.Begins Argument.spell args) {o o' : PasteOpts}
    (hparse : parse args o = some o') : args = [] ∧ o' = o := by
  rw [parse.eq_def] at hparse
  rcases args with _ | ⟨a, args⟩
  · cases hparse
    exact ⟨rfl, rfl⟩
  have hword : ∀ (w : Argument) rest, a :: args ≠ w.spell ++ rest := fun w rest heq => h ⟨w, rest, heq⟩
  dsimp only at hparse
  split_ifs at hparse with htype hlist hnewline
  · rcases args with _ | ⟨v, args⟩
    · cases hparse
    · rcases htype with rfl | rfl
      · exact absurd rfl (hword (.type false v) args)
      · exact absurd rfl (hword (.type true v) args)
  · rcases hlist with rfl | rfl
    · exact absurd rfl (hword (.listTypes false) args)
    · exact absurd rfl (hword (.listTypes true) args)
  · rcases hnewline with rfl | rfl
    · exact absurd rfl (hword (.noNewline false) args)
    · exact absurd rfl (hword (.noNewline true) args)

theorem parse_iff {args : List Text} {o o' : PasteOpts} : parse args o = some o' ↔
    ∃ words : List Argument, args = words.flatMap Argument.spell ∧
      o' = words.foldl Argument.apply o := by
  constructor
  · rw [Words.read_iff Argument.spell_ne_nil parse_spell]
    rintro ⟨words, rest, rfl, hrest, hparse⟩
    obtain ⟨rfl, rfl⟩ := parse_finish hrest hparse
    exact ⟨words, List.append_nil _, rfl⟩
  · rintro ⟨words, rfl, rfl⟩
    have hread := Words.read_words parse_spell words [] o
    rwa [List.append_nil] at hread

end PasteCommand

namespace ProtocolsCommand

def verboseFlag (long : Bool) : Text := if long then text "--verbose" else text "-v"

theorem parse_spell (long : Bool) (rest : List Text) (verbose : Bool) :
    parse ([verboseFlag long] ++ rest) verbose = parse rest true := by
  rw [parse.eq_def]
  cases long <;> rfl

theorem foldl_flags (flags : List Bool) (verbose : Bool) :
    flags.foldl (fun _ _ => true) verbose = (verbose || !flags.isEmpty) := by
  induction flags generalizing verbose with
  | nil => simp
  | cons long flags ih => simp [ih]

/-- What is understood are flags, or flags and a request for help. -/
theorem parse_iff {args : List Text} {a : Arguments} (ha : ∀ s, a ≠ .unknown s) :
    parse args false = a ↔ ∃ flags : List Bool,
      args = flags.map verboseFlag ∧ a = .list (!flags.isEmpty) ∨
      ∃ s rest, args = flags.map verboseFlag ++ s :: rest ∧ (s = text "-h" ∨ s = text "--help") ∧
        a = .help := by
  have hmap : ∀ flags : List Bool, flags.flatMap (fun long => [verboseFlag long]) =
      flags.map verboseFlag := fun flags => List.map_eq_flatMap.symm
  have hnil : ∀ long : Bool, [verboseFlag long] ≠ [] := fun _ => List.cons_ne_nil _ _
  constructor
  · rw [Words.read_iff hnil parse_spell]
    rintro ⟨flags, rest, rfl, hrest, hparse⟩
    rw [foldl_flags, Bool.false_or] at hparse
    rw [hmap]
    refine ⟨flags, ?_⟩
    rcases rest with _ | ⟨s, rest⟩
    · exact .inl ⟨List.append_nil _, hparse.symm⟩
    rw [parse] at hparse
    split_ifs at hparse with hverbose hhelp
    · refine absurd ?_ hrest
      rcases hverbose with rfl | rfl
      · exact ⟨false, rest, rfl⟩
      · exact ⟨true, rest, rfl⟩
    · exact .inr ⟨s, rest, rfl, hhelp, hparse.symm⟩
    · exact absurd hparse.symm (ha s)
  · rintro ⟨flags, ⟨rfl, rfl⟩ | ⟨s, rest, rfl, hs, rfl⟩⟩
    · have hread := Words.read_words parse_spell flags [] false
      rw [List.append_nil, hmap, foldl_flags] at hread
      exact hread
    · rw [← hmap, Words.read_words parse_spell]
      rcases hs with rfl | rfl <;> rfl

end ProtocolsCommand

/-! ## The program -/

open CopyCommand (CopyOpts selectKind branch runX11 runDetached collectData)
open PasteCommand (PasteOpts stdoutFileno)

/-- `kind` is what an uninitialised variable of a copy holds. -/
def main (kind : BackendKind) (argv : List Text) : Prog Halt Process ℕ :=
  match parseGlobalOptions argv .new with
  | .version => do
    let _ ← Process.write stdoutFileno (text "wlclip 0.1.0\n")
    return 0
  | .help => return 0
  | .unknown _ => return 2
  | .command opts command rest =>
    if command = [] then return 2
    else if command = text "copy" then CopyCommand.runCopy opts.toCommonOptions rest kind
    else if command = text "paste" then PasteCommand.runPaste opts.toCommonOptions rest
    else if command = text "protocols" then ProtocolsCommand.runProtocols opts.toCommonOptions rest
    else return 2

/-- What the program is asked to do. -/
inductive Job
  | version
  | help
  | copy (common : CommonOptions) (o : CopyOpts) (kind : BackendKind)
  | paste (common : CommonOptions) (o : PasteOpts) (kind : BackendKind)
  | protocols (common : CommonOptions) (verbose : Bool)
  deriving DecidableEq

def Job.perform : Job → Prog Halt Process ℕ
  | version => do
    let _ ← Process.write stdoutFileno (text "wlclip 0.1.0\n")
    return 0
  | help => return 0
  | copy common o kind => do
    let data ← collectData o
    if branch kind = .x11 then runX11 common o data else runDetached common o kind data
  | paste common o kind => do
    let (ok, out) ← PasteCommand.receive common o kind
    if ok then PasteCommand.output o out else return 1
  | protocols common verbose => State.run (ProtocolsCommand.listGlobals common verbose)

/-- The arguments of a command that are understood. -/
inductive Asks (kind : BackendKind) (common : CommonOptions) : Text → List Text → Job → Prop
  | copy (words : List CopyCommand.Argument) {o : CopyOpts} {k : BackendKind}
      (ho : o = words.foldl CopyCommand.Argument.apply .new) (hkind : selectKind common o kind = some k) :
      Asks kind common (text "copy") (words.flatMap CopyCommand.Argument.spell) (.copy common o k)
  | copyOperands (words : List CopyCommand.Argument) (operands : List Text) {o : CopyOpts}
      {k : BackendKind} (ho : o = { words.foldl CopyCommand.Argument.apply .new with
        rest := (words.foldl CopyCommand.Argument.apply .new).rest ++ operands })
      (hkind : selectKind common o kind = some k) :
      Asks kind common (text "copy")
        (words.flatMap CopyCommand.Argument.spell ++ text "--" :: operands) (.copy common o k)
  | paste (words : List PasteCommand.Argument) {o : PasteOpts} {k : BackendKind}
      (ho : o = words.foldl PasteCommand.Argument.apply .new)
      (hkind : parseBackendKind common.backend = some k) :
      Asks kind common (text "paste") (words.flatMap PasteCommand.Argument.spell) (.paste common o k)
  | protocols (flags : List Bool) :
      Asks kind common (text "protocols") (flags.map ProtocolsCommand.verboseFlag)
        (.protocols common (!flags.isEmpty))
  | protocolsHelp (flags : List Bool) (a : Text) (rest : List Text)
      (h : a = text "-h" ∨ a = text "--help") :
      Asks kind common (text "protocols") (flags.map ProtocolsCommand.verboseFlag ++ a :: rest) .help

/-- The command lines that are understood. -/
inductive Line (kind : BackendKind) : List Text → Job → Prop
  | version (globals : List GlobalOption) (rest : List Text) :
      Line kind (globals.flatMap GlobalOption.spell ++ text "--version" :: rest) .version
  | help (globals : List GlobalOption) (a : Text) (rest : List Text)
      (h : a = text "-h" ∨ a = text "--help" ∨ a = text "help") :
      Line kind (globals.flatMap GlobalOption.spell ++ a :: rest) .help
  | command (globals : List GlobalOption) {a : Text} {rest : List Text} {i : Job}
      (h : Asks kind (globals.foldl GlobalOption.apply .new).toCommonOptions a rest i) :
      Line kind (globals.flatMap GlobalOption.spell ++ a :: rest) i

/-- What the program makes of the arguments of a command. -/
def asked (kind : BackendKind) (common : CommonOptions) (command : Text) (rest : List Text) :
    Option Job :=
  if command = text "copy" then
    (CopyCommand.parse rest .new).bind fun o =>
      (selectKind common o kind).map fun k => .copy common o k
  else if command = text "paste" then
    (PasteCommand.parse rest .new).bind fun o =>
      (parseBackendKind common.backend).map fun k => .paste common o k
  else if command = text "protocols" then
    match ProtocolsCommand.parse rest false with
    | .list verbose => some (.protocols common verbose)
    | .help => some .help
    | .unknown _ => none
  else none

/-- What the program makes of its command line. -/
def jobOf (kind : BackendKind) (argv : List Text) : Option Job :=
  match parseGlobalOptions argv .new with
  | .version => some .version
  | .help => some .help
  | .unknown _ => none
  | .command opts command rest => asked kind opts.toCommonOptions command rest

theorem main_eq (kind : BackendKind) (argv : List Text) :
    main kind argv = match jobOf kind argv with
      | some i => i.perform
      | none => pure 2 := by
  unfold main jobOf
  rcases parseGlobalOptions argv .new with ⟨opts, command, rest⟩ | _ | _ | a
  · dsimp only [asked]
    by_cases hnone : command = []
    · rw [if_pos hnone, hnone, if_neg (by decide), if_neg (by decide), if_neg (by decide)]
    rw [if_neg hnone]
    by_cases hcopy : command = text "copy"
    · rw [if_pos hcopy, if_pos hcopy, CopyCommand.runCopy]
      rcases CopyCommand.parse rest .new with _ | o
      · rfl
      rw [Option.bind_some]
      dsimp only
      rcases selectKind opts.toCommonOptions o kind with _ | k <;> rfl
    rw [if_neg hcopy, if_neg hcopy]
    by_cases hpaste : command = text "paste"
    · rw [if_pos hpaste, if_pos hpaste, PasteCommand.runPaste]
      rcases PasteCommand.parse rest .new with _ | o
      · rfl
      rcases parseBackendKind opts.backend with _ | k <;> rfl
    rw [if_neg hpaste, if_neg hpaste]
    by_cases hprotocols : command = text "protocols"
    · rw [if_pos hprotocols, if_pos hprotocols, ProtocolsCommand.runProtocols]
      rcases ProtocolsCommand.parse rest false with verbose | _ | s <;> rfl
    · rw [if_neg hprotocols, if_neg hprotocols]
  all_goals rfl

theorem asked_iff {kind : BackendKind} {common : CommonOptions} {command : Text} {rest : List Text}
    {i : Job} : asked kind common command rest = some i ↔ Asks kind common command rest i := by
  constructor
  · intro h
    unfold asked at h
    split_ifs at h with hcopy hpaste hprotocols
    · subst hcopy
      obtain ⟨o, hparse, h⟩ := Option.bind_eq_some_iff.mp h
      obtain ⟨k, hkind, rfl⟩ := Option.map_eq_some_iff.mp h
      obtain ⟨words, ⟨rfl, ho⟩ | ⟨operands, rfl, ho⟩⟩ := CopyCommand.parse_iff.mp hparse
      · exact .copy words ho hkind
      · exact .copyOperands words operands ho hkind
    · subst hpaste
      obtain ⟨o, hparse, h⟩ := Option.bind_eq_some_iff.mp h
      obtain ⟨k, hkind, rfl⟩ := Option.map_eq_some_iff.mp h
      obtain ⟨words, rfl, ho⟩ := PasteCommand.parse_iff.mp hparse
      exact .paste words ho hkind
    · subst hprotocols
      rcases hparse : ProtocolsCommand.parse rest false with verbose | _ | s <;> rw [hparse] at h <;>
        cases h
      · obtain ⟨flags, ⟨rfl, hlist⟩ | ⟨-, -, -, -, hhelp⟩⟩ :=
          (ProtocolsCommand.parse_iff (by simp)).mp hparse
        · cases hlist
          exact .protocols flags
        · cases hhelp
      · obtain ⟨flags, ⟨-, hlist⟩ | ⟨s, rest', rfl, hs, -⟩⟩ :=
          (ProtocolsCommand.parse_iff (by simp)).mp hparse
        · cases hlist
        · exact .protocolsHelp flags s rest' hs
  · intro h
    cases h with
    | copy words ho hkind =>
        have hparse := CopyCommand.parse_iff.mpr ⟨words, .inl ⟨rfl, ho⟩⟩
        rw [asked, if_pos rfl, hparse, Option.bind_some, hkind, Option.map_some]
    | copyOperands words operands ho hkind =>
        have hparse := CopyCommand.parse_iff.mpr ⟨words, .inr ⟨operands, rfl, ho⟩⟩
        rw [asked, if_pos rfl, hparse, Option.bind_some, hkind, Option.map_some]
    | paste words ho hkind =>
        have hparse := PasteCommand.parse_iff.mpr ⟨words, rfl, ho⟩
        rw [asked, if_neg (by decide), if_pos rfl, hparse, Option.bind_some, hkind, Option.map_some]
    | protocols flags =>
        have hparse := (ProtocolsCommand.parse_iff (a := .list (!flags.isEmpty)) (by simp)).mpr
          ⟨flags, .inl ⟨rfl, rfl⟩⟩
        rw [asked, if_neg (by decide), if_neg (by decide), if_pos rfl, hparse]
    | protocolsHelp flags a rest' hs =>
        have hparse := (ProtocolsCommand.parse_iff (a := .help) (by simp)).mpr
          ⟨flags, .inr ⟨a, rest', rfl, hs, rfl⟩⟩
        rw [asked, if_neg (by decide), if_neg (by decide), if_pos rfl, hparse]

theorem Asks.names {kind : BackendKind} {common : CommonOptions} {command : Text} {rest : List Text}
    {i : Job} (h : Asks kind common command rest i) : Names command := by
  cases h <;> decide

theorem jobOf_iff {kind : BackendKind} {argv : List Text} {i : Job} :
    jobOf kind argv = some i ↔ Line kind argv i := by
  constructor
  · intro h
    rcases hparse : parseGlobalOptions argv .new with ⟨opts, command, rest⟩ | _ | _ | a <;>
      rw [jobOf, hparse] at h
    · have hasks := asked_iff.mp h
      obtain ⟨-, words, rfl, rfl⟩ := (parseGlobalOptions_command hasks.names.1).mp hparse
      exact .command words hasks
    · cases h
      obtain ⟨words, rest, rfl, -, hfinish⟩ := parseGlobalOptions_iff.mp hparse
      obtain ⟨rest, rfl⟩ := finish_version hfinish
      exact .version words rest
    · cases h
      obtain ⟨words, rest, rfl, -, hfinish⟩ := parseGlobalOptions_iff.mp hparse
      obtain ⟨a, rest, rfl, ha⟩ := finish_help hfinish
      exact .help words a rest ha
    · cases h
  · intro h
    cases h with
    | version globals rest =>
        rw [jobOf, parseGlobalOptions_version]
    | help globals a rest ha =>
        rw [jobOf, parseGlobalOptions_help globals rest _ ha]
    | @command globals a rest i hasks =>
        have hparse : parseGlobalOptions (globals.flatMap GlobalOption.spell ++ a :: rest) .new =
            .command (globals.foldl GlobalOption.apply .new) a rest :=
          (parseGlobalOptions_command hasks.names.1).mpr ⟨hasks.names, globals, rfl, rfl⟩
        rw [jobOf, hparse]
        exact asked_iff.mpr hasks

/-! ## How the program ends -/

theorem exitCode_le (ok : Bool) : CopyCommand.exitCode ok ≤ 1 := by cases ok <;> decide

theorem Job.perform_proceeds (i : Job) : Proceeds i.perform := by
  cases i with
  | version => exact Halts.bind (Process.write_proceeds _ _) fun _ => Halts.pure _
  | help => exact Halts.pure _
  | copy common o kind =>
      exact Halts.bind (CopyCommand.collectData_proceeds _) fun data =>
        Halts.ite (CopyCommand.runX11_proceeds _ _ _) (CopyCommand.runDetached_proceeds _ _ _ _)
  | paste common o kind =>
      exact Halts.bind (PasteCommand.receive_proceeds _ _ _) fun r =>
        Halts.ite (PasteCommand.output_proceeds _ _) (Halts.pure _)
  | protocols common verbose =>
      refine State.run_proceeds (Halts.bind (State.connect_proceeds _) fun ok => ?_)
      refine Halts.ite (Halts.bind State.initialSync_proceeds fun _ => ?_) (Halts.pure _)
      refine Halts.bind (Halts.read _) fun globals => Halts.bind (State.sys_proceeds ?_) fun _ =>
        Halts.pure _
      exact Halts.ite (Halts.pure _)
        (Halts.bind (Process.write_proceeds _ _) fun _ => Halts.pure _)

theorem runLibwayland_returns (common : CommonOptions) (o : CopyOpts) (kind : BackendKind)
    (data : CopyData) : ReturnsIn (· ≤ 1) (CopyCommand.runLibwayland common o kind data) := by
  have hclear : ∀ seat, ReturnsIn (· ≤ 1) (CopyCommand.handleClear seat common.primary) := fun seat =>
    ReturnsIn.bind fun s => ReturnsIn.ite (ReturnsIn.pure le_rfl) <| ReturnsIn.bind fun _ =>
      ReturnsIn.bind fun _ => ReturnsIn.bind fun _ => ReturnsIn.bind fun _ => ReturnsIn.pure (Nat.zero_le 1)
  refine ReturnsIn.zoom (ReturnsIn.bind fun ok => ReturnsIn.ite ?_ (ReturnsIn.pure le_rfl))
  apply ReturnsIn.bind
  intro _
  apply ReturnsIn.bind
  rintro (_ | seat)
  · exact ReturnsIn.pure le_rfl
  refine ReturnsIn.ite (hclear seat) (ReturnsIn.bind fun s => ?_)
  rcases makeBackend s kind with _ | backend
  · exact ReturnsIn.pure le_rfl
  · exact ReturnsIn.bind fun ok => ReturnsIn.pure (exitCode_le ok)

theorem runDetached_returns (common : CommonOptions) (o : CopyOpts) (kind : BackendKind)
    (data : CopyData) : ReturnsIn (· ≤ 1) (runDetached common o kind data) := by
  have hhandcrafted : ReturnsIn (· ≤ 1) (CopyCommand.runHandcrafted common o data) :=
    ReturnsIn.ite (ReturnsIn.pure le_rfl) (ReturnsIn.bind fun ok => ReturnsIn.pure (exitCode_le ok))
  have hrun : ∀ detached : Bool, ReturnsIn (· ≤ 1) (if (!detached) = true then
      (pure 1 : Prog Halt Process ℕ)
    else if branch kind = .handcrafted then CopyCommand.runHandcrafted common o data
    else CopyCommand.runLibwayland common o kind data) := fun detached =>
    ReturnsIn.ite (ReturnsIn.pure le_rfl) (ReturnsIn.ite hhandcrafted (runLibwayland_returns _ _ _ _))
  exact ReturnsIn.ite (ReturnsIn.bind hrun) (ReturnsIn.bind hrun)

theorem output_returns (o : PasteOpts) (out : PasteResult) :
    ReturnsIn (· ≤ 1) (PasteCommand.output o out) := by
  have hwrite : ∀ bytes, ReturnsIn (· ≤ 1) (do
      let _ ← Process.write stdoutFileno bytes
      return 0 : Prog Halt Process ℕ) := fun bytes => ReturnsIn.bind fun _ => ReturnsIn.pure (Nat.zero_le 1)
  have hnewline : ∀ ok : Bool, ReturnsIn (· ≤ 1) (if (!ok) = true then (pure 1 : Prog Halt Process ℕ)
      else if PasteCommand.addsNewline o out = true then do
        let _ ← Process.write stdoutFileno [0x0A]
        return 0
      else pure 0) := fun ok =>
    ReturnsIn.ite (ReturnsIn.pure le_rfl) (ReturnsIn.ite (hwrite _) (ReturnsIn.pure (Nat.zero_le 1)))
  exact ReturnsIn.ite (ReturnsIn.ite (ReturnsIn.pure (Nat.zero_le 1)) (hwrite _))
    (ReturnsIn.ite (ReturnsIn.bind hnewline) (ReturnsIn.bind hnewline))

theorem Job.perform_returns (i : Job) : ReturnsIn (· ≤ 1) i.perform := by
  cases i with
  | version => exact ReturnsIn.bind fun _ => ReturnsIn.pure (Nat.zero_le 1)
  | help => exact ReturnsIn.pure (Nat.zero_le 1)
  | copy common o kind =>
      refine ReturnsIn.bind fun data => ReturnsIn.ite ?_ (runDetached_returns _ _ _ _)
      exact ReturnsIn.ite (ReturnsIn.pure le_rfl) (ReturnsIn.bind fun ok => ReturnsIn.pure (exitCode_le ok))
  | paste common o kind =>
      exact ReturnsIn.bind fun r => ReturnsIn.ite (output_returns _ _) (ReturnsIn.pure le_rfl)
  | protocols common verbose =>
      refine ReturnsIn.zoom (ReturnsIn.bind fun ok => ReturnsIn.ite ?_ (ReturnsIn.pure le_rfl))
      exact ReturnsIn.bind fun _ => ReturnsIn.bind fun globals => ReturnsIn.bind fun _ =>
        ReturnsIn.pure (Nat.zero_le 1)

/-- A command line that is understood is understood in one way, and then done; any other one is
refused before anything is done. A run that does not wait in a call ends with a status of 0 or 1, or
of 2 for a command line that is refused, by a signal or an exception, or as the parent of a daemon. -/
theorem main_understands (kind : BackendKind) (argv : List Text) (p : Process) :
    (∃ i, (∀ j, Line kind argv j ↔ j = i) ∧ main kind argv p = i.perform p ∧
      (∀ n q, i.perform p = (.ok n, q) → n ≤ 1) ∧
      ∀ e q, i.perform p = (.error e, q) → e.Ordinary) ∨
    (∀ j, ¬ Line kind argv j) ∧ main kind argv p = (.ok 2, p) := by
  rw [main_eq]
  rcases hunderstood : jobOf kind argv with _ | i
  · refine .inr ⟨fun j hj => ?_, rfl⟩
    rw [← jobOf_iff, hunderstood] at hj
    cases hj
  · refine .inl ⟨i, fun j => ?_, rfl, i.perform_returns p, fun e q h => i.perform_proceeds.error h⟩
    rw [← jobOf_iff, hunderstood, Option.some.injEq]
    exact eq_comm

end WlClip
