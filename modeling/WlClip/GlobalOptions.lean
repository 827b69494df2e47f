import WlClip.CopyCommand
import WlClip.Words

/-!
# The options before the command

`parse_global_options` of `options.cpp` with what it calls. It is a reader of words: the words are
the options as they are spelled, and what it makes of the arguments is decided by those and by the
first argument that is none.
-/

namespace WlClip

namespace Options

/-- `CommonOptions` with the two fields that only matter to the log. -/
structure GlobalOptions extends CommonOptions where
  verbosity : ℕ
  quiet : Bool
  deriving DecidableEq

def GlobalOptions.new : GlobalOptions :=
  { display := [], seat := [], backend := [], primary := false, verbosity := 0, quiet := false }

/-- The command is empty where there is none. -/
inductive ParseResult
  | command (opts : GlobalOptions) (command : Text) (rest : List Text)
  | version
  | help
  | unknown (a : Text)
  deriving DecidableEq

/-- The value of the option if it comes first, and the arguments after it. -/
def eat (shortName longName : Text) : List Text → Option (Text × List Text)
  | [] => none
  | a :: args =>
    if a = shortName ∨ a = longName then
      match args with
      | [] => none
      | v :: args => some (v, args)
    else if startsWith a (longName ++ text "=") then
      some (a.drop (longName ++ text "=").length, args)
    else none

/-- `-v`, `-vv` and so on. -/
def raises (a : Text) : Bool :=
  2 ≤ a.length && a.take 2 = text "-v" && (a.drop 1).all fun c => c = 0x76

/-- A round of the loop that takes an option. -/
def option (opts : GlobalOptions) (argv : List Text) : Option (GlobalOptions × List Text) :=
  ((eat (text "-d") (text "--display") argv).map fun r => ({ opts with display := r.1 }, r.2)).or <|
  ((eat (text "-s") (text "--seat") argv).map fun r => ({ opts with seat := r.1 }, r.2)).or <|
  ((eat (text "-b") (text "--backend") argv).map fun r => ({ opts with backend := r.1 }, r.2)).or <|
  ((eat (text "-P") (text "--protocol") argv).map fun r => ({ opts with backend := r.1 }, r.2)).or <|
  match argv with
  | [] => none
  | a :: args =>
    if a = text "-p" ∨ a = text "--primary" then some ({ opts with primary := true }, args)
    else if a = text "--verbose" then some ({ opts with verbosity := opts.verbosity + 1 }, args)
    else if raises a then
      some ({ opts with verbosity := opts.verbosity + (a.length - 1) }, args)
    else if a = text "-q" ∨ a = text "--quiet" then some ({ opts with quiet := true }, args)
    else none

/-- A round of the loop that is the last. -/
def finish (opts : GlobalOptions) : List Text → ParseResult
  | [] => .command opts [] []
  | a :: args =>
    if a = text "--version" then .version
    else if a = text "-h" ∨ a = text "--help" ∨ a = text "help" then .help
    else if a ≠ [] ∧ a.head? ≠ some 0x2D then .command opts a args
    else .unknown a

theorem eat_some {shortName longName v : Text} {argv rest : List Text}
    (h : eat shortName longName argv = some (v, rest)) :
    argv = shortName :: v :: rest ∨ argv = longName :: v :: rest ∨
      argv = (longName ++ text "=" ++ v) :: rest := by
  rcases argv with _ | ⟨a, args⟩
  · cases h
  dsimp only [eat] at h
  split_ifs at h with hname hjoined
  · rcases args with _ | ⟨v', args⟩
    · cases h
    · cases h
      rcases hname with rfl | rfl
      · exact .inl rfl
      · exact .inr (.inl rfl)
  · cases h
    have hjoin : longName ++ text "=" ++ a.drop (longName ++ text "=").length = a :=
      List.prefix_iff_eq_append.mp (List.isPrefixOf_iff_prefix.mp hjoined)
    exact .inr (.inr (by rw [hjoin]))

/-! ## Options as they are spelled -/

/-- The options with a value. -/
inductive Valued
  | display
  | seat
  | backend
  | protocol
  deriving DecidableEq

namespace Valued

def shortName : Valued → Text
  | display => text "-d"
  | seat => text "-s"
  | backend => text "-b"
  | protocol => text "-P"

def longName : Valued → Text
  | display => text "--display"
  | seat => text "--seat"
  | backend => text "--backend"
  | protocol => text "--protocol"

def set (v : Text) (opts : GlobalOptions) : Valued → GlobalOptions
  | display => { opts with display := v }
  | seat => { opts with seat := v }
  | backend => { opts with backend := v }
  | protocol => { opts with backend := v }

end Valued

inductive GlobalOption
  | separate (o : Valued) (long : Bool) (v : Text)
  | joined (o : Valued) (v : Text)
  | primary (long : Bool)
  | verbose
  | verbosity (more : ℕ)
  | quiet (long : Bool)

namespace GlobalOption

def spell : GlobalOption → List Text
  | separate o long v => [if long then o.longName else o.shortName, v]
  | joined o v => [o.longName ++ text "=" ++ v]
  | primary long => [if long then text "--primary" else text "-p"]
  | verbose => [text "--verbose"]
  | verbosity more => [text "-v" ++ List.replicate more 0x76]
  | quiet long => [if long then text "--quiet" else text "-q"]

def apply (opts : GlobalOptions) : GlobalOption → GlobalOptions
  | separate o _ v => o.set v opts
  | joined o v => o.set v opts
  | primary _ => { opts with primary := true }
  | verbose => { opts with verbosity := opts.verbosity + 1 }
  | verbosity more => { opts with verbosity := opts.verbosity + (more + 1) }
  | quiet _ => { opts with quiet := true }

theorem spell_ne_nil (w : GlobalOption) : w.spell ≠ [] := by cases w <;> simp [spell]

end GlobalOption

theorem raises_verbosity (more : ℕ) : raises (text "-v" ++ List.replicate more 0x76) = true := by
  have hall : ((text "-v" ++ List.replicate more 0x76).drop 1).all (fun c => c = 0x76) = true := by
    rw [List.all_eq_true]
    intro c hc
    have hmem : c = 0x76 ∨ c ∈ List.replicate more 0x76 := List.mem_cons.mp hc
    rcases hmem with rfl | hmem
    · rfl
    · rw [List.eq_of_mem_replicate hmem]
      rfl
  rw [raises, hall]
  simp [text]

theorem option_spell (opts : GlobalOptions) (w : GlobalOption) (rest : List Text) :
    option opts (w.spell ++ rest) = some (w.apply opts, rest) := by
  cases w with
  | separate o long v => cases o <;> cases long <;> rfl
  | joined o v => cases o <;> rfl
  | primary long => cases long <;> rfl
  | verbose => rfl
  | verbosity more =>
      have hoption : option opts ((text "-v" ++ List.replicate more 0x76) :: rest) =
          if raises (text "-v" ++ List.replicate more 0x76) then
            some ({ opts with verbosity := opts.verbosity +
              ((text "-v" ++ List.replicate more 0x76).length - 1) }, rest)
          else none := rfl
      have hlen : (text "-v" ++ List.replicate more 0x76).length - 1 = more + 1 := by
        rw [List.length_append, List.length_replicate]
        change 2 + more - 1 = more + 1
        omega
      exact hoption.trans (by rw [if_pos (raises_verbosity more), hlen]; rfl)
  | quiet long => cases long <;> rfl

theorem raises_some {a : Text} (h : raises a = true) :
    ∃ more, a = text "-v" ++ List.replicate more 0x76 ∧ a.length - 1 = more + 1 := by
  simp only [raises, Bool.and_eq_true, decide_eq_true_eq] at h
  obtain ⟨⟨hlen, htake⟩, hall⟩ := h
  have hdrop : a.drop 2 = List.replicate (a.drop 2).length 0x76 := by
    refine List.eq_replicate_of_mem fun c hc => ?_
    have hmem : c ∈ a.drop 1 := List.mem_of_mem_drop (show c ∈ (a.drop 1).drop 1 by simpa using hc)
    exact of_decide_eq_true (List.all_eq_true.mp hall c hmem)
  refine ⟨(a.drop 2).length, ?_, ?_⟩
  · rw [← hdrop, ← htake, List.take_append_drop]
  · rw [List.length_drop]
    omega

/-- What a round takes is an option as it is spelled. -/
theorem option_some {opts opts' : GlobalOptions} {argv rest : List Text}
    (h : option opts argv = some (opts', rest)) :
    ∃ w : GlobalOption, argv = w.spell ++ rest ∧ opts' = w.apply opts := by
  have hvalued : ∀ o : Valued,
      (eat o.shortName o.longName argv).map (fun r => (o.set r.1 opts, r.2)) = some (opts', rest) →
        ∃ w : GlobalOption, argv = w.spell ++ rest ∧ opts' = w.apply opts := by
    intro o ho
    obtain ⟨⟨v, rest'⟩, heat, hset⟩ := Option.map_eq_some_iff.mp ho
    cases hset
    rcases eat_some heat with rfl | rfl | rfl
    · exact ⟨.separate o false v, rfl, rfl⟩
    · exact ⟨.separate o true v, rfl, rfl⟩
    · exact ⟨.joined o v, rfl, rfl⟩
  unfold option at h
  simp only [Option.or_eq_some_iff] at h
  rcases h with h | ⟨-, h | ⟨-, h | ⟨-, h | ⟨-, h⟩⟩⟩⟩
  · exact hvalued .display h
  · exact hvalued .seat h
  · exact hvalued .backend h
  · exact hvalued .protocol h
  rcases argv with _ | ⟨a, args⟩
  · cases h
  dsimp only at h
  split_ifs at h with hprimary hverbose hraises hquiet <;> cases h
  · rcases hprimary with rfl | rfl
    · exact ⟨.primary false, rfl, rfl⟩
    · exact ⟨.primary true, rfl, rfl⟩
  · subst hverbose
    exact ⟨.verbose, rfl, rfl⟩
  · obtain ⟨more, rfl, hlen⟩ := raises_some hraises
    exact ⟨.verbosity more, rfl, by rw [hlen]; rfl⟩
  · rcases hquiet with rfl | rfl
    · exact ⟨.quiet false, rfl, rfl⟩
    · exact ⟨.quiet true, rfl, rfl⟩

theorem option_length {opts opts' : GlobalOptions} {argv rest : List Text}
    (h : option opts argv = some (opts', rest)) : rest.length < argv.length := by
  obtain ⟨w, rfl, -⟩ := option_some h
  have hpos : 0 < w.spell.length := List.length_pos_iff.mpr w.spell_ne_nil
  rw [List.length_append]
  omega

/-- Goes through the arguments up to the command. -/
def parseGlobalOptions (argv : List Text) (opts : GlobalOptions) : ParseResult :=
  match _h : option opts argv with
  | some (opts', rest) => parseGlobalOptions rest opts'
  | none => finish opts argv
termination_by argv.length
decreasing_by exact option_length _h

theorem parseGlobalOptions_spell (w : GlobalOption) (rest : List Text) (opts : GlobalOptions) :
    parseGlobalOptions (w.spell ++ rest) opts = parseGlobalOptions rest (w.apply opts) := by
  rw [parseGlobalOptions]
  split
  · next h =>
    rw [option_spell] at h
    cases h
    rfl
  · next h =>
    rw [option_spell] at h
    cases h

theorem parseGlobalOptions_none {argv : List Text} {opts : GlobalOptions}
    (h : option opts argv = none) : parseGlobalOptions argv opts = finish opts argv := by
  rw [parseGlobalOptions]
  split
  · next hoption =>
    rw [h] at hoption
    cases hoption
  · rfl

theorem parseGlobalOptions_finish {argv : List Text} (h : ¬ Words.Begins GlobalOption.spell argv)
    (opts : GlobalOptions) : parseGlobalOptions argv opts = finish opts argv := by
  refine parseGlobalOptions_none (Option.eq_none_iff_forall_not_mem.mpr ?_)
  rintro ⟨opts', rest⟩ hoption
  obtain ⟨w, rfl, -⟩ := option_some hoption
  exact h (Words.begins_append w _)

/-- The arguments are options, and what is made of them depends on the first that is none. -/
theorem parseGlobalOptions_iff {argv : List Text} {opts : GlobalOptions} {r : ParseResult} :
    parseGlobalOptions argv opts = r ↔ ∃ (words : List GlobalOption) (rest : List Text),
      argv = words.flatMap GlobalOption.spell ++ rest ∧
        ¬ Words.Begins GlobalOption.spell rest ∧
          finish (words.foldl GlobalOption.apply opts) rest = r := by
  rw [Words.read_iff GlobalOption.spell_ne_nil parseGlobalOptions_spell]
  constructor
  · rintro ⟨words, rest, hargv, hrest, rfl⟩
    exact ⟨words, rest, hargv, hrest, (parseGlobalOptions_finish hrest _).symm⟩
  · rintro ⟨words, rest, hargv, hrest, rfl⟩
    exact ⟨words, rest, hargv, hrest, parseGlobalOptions_finish hrest _⟩

/-- Every option begins with a dash. -/
theorem GlobalOption.spell_dash (w : GlobalOption) (rest : List Text) :
    ∃ a args, w.spell ++ rest = a :: args ∧ a.head? = some 0x2D := by
  cases w with
  | separate o long v => exact ⟨_, v :: rest, rfl, by cases o <;> cases long <;> rfl⟩
  | joined o v => exact ⟨_, rest, rfl, by cases o <;> rfl⟩
  | primary long => exact ⟨_, rest, rfl, by cases long <;> rfl⟩
  | verbose => exact ⟨_, rest, rfl, rfl⟩
  | verbosity more => exact ⟨_, rest, rfl, rfl⟩
  | quiet long => exact ⟨_, rest, rfl, by cases long <;> rfl⟩

/-- What may stand for a command. -/
def Names (a : Text) : Prop := a ≠ [] ∧ a.head? ≠ some 0x2D ∧ a ≠ text "help"

instance : DecidablePred Names := fun _ => inferInstanceAs (Decidable (_ ∧ _ ∧ _))

theorem Names.not_begins {a : Text} (h : Names a) (rest : List Text) :
    ¬ Words.Begins GlobalOption.spell (a :: rest) := by
  rintro ⟨w, rest', heq⟩
  obtain ⟨a', args, hspell, hdash⟩ := w.spell_dash rest'
  obtain ⟨rfl, -⟩ := List.cons.inj (heq.trans hspell)
  exact h.2.1 hdash

/-- A command is what comes behind options and is none. -/
theorem parseGlobalOptions_command {argv : List Text} {opts opts' : GlobalOptions} {a : Text}
    {rest : List Text} (ha : a ≠ []) :
    parseGlobalOptions argv opts = .command opts' a rest ↔ Names a ∧
      ∃ words : List GlobalOption, argv = words.flatMap GlobalOption.spell ++ a :: rest ∧
        opts' = words.foldl GlobalOption.apply opts := by
  constructor
  · rw [parseGlobalOptions_iff]
    rintro ⟨words, l, rfl, -, hfinish⟩
    rcases l with _ | ⟨a', args⟩
    · cases hfinish
      exact absurd rfl ha
    · simp only [finish] at hfinish
      split_ifs at hfinish with hversion hhelp hname
      cases hfinish
      exact ⟨⟨hname.1, hname.2, fun h => hhelp (.inr (.inr h))⟩, words, rfl, rfl⟩
  · rintro ⟨hname, words, rfl, rfl⟩
    rw [Words.read_words parseGlobalOptions_spell, parseGlobalOptions_finish (hname.not_begins rest)]
    have hdash : ∀ s : Text, s.head? = some 0x2D → a ≠ s := by
      rintro s hs rfl
      exact hname.2.1 hs
    have hhelp : ¬ (a = text "-h" ∨ a = text "--help" ∨ a = text "help") := by
      rintro (h | h | h)
      · exact hdash _ rfl h
      · exact hdash _ rfl h
      · exact hname.2.2 h
    rw [finish, if_neg (hdash _ rfl), if_neg hhelp, if_pos ⟨hname.1, hname.2.1⟩]

theorem finish_version {opts : GlobalOptions} {argv : List Text} (h : finish opts argv = .version) :
    ∃ rest, argv = text "--version" :: rest := by
  unfold finish at h
  split at h
  · cases h
  · next a args =>
    split_ifs at h with hversion
    exact ⟨args, by rw [hversion]⟩

theorem finish_help {opts : GlobalOptions} {argv : List Text} (h : finish opts argv = .help) :
    ∃ a rest, argv = a :: rest ∧ (a = text "-h" ∨ a = text "--help" ∨ a = text "help") := by
  unfold finish at h
  split at h
  · cases h
  · next a args =>
    split_ifs at h with hversion hhelp
    exact ⟨a, args, rfl, hhelp⟩

theorem parseGlobalOptions_version (words : List GlobalOption) (rest : List Text)
    (opts : GlobalOptions) :
    parseGlobalOptions (words.flatMap GlobalOption.spell ++ text "--version" :: rest) opts =
      .version := by
  rw [Words.read_words parseGlobalOptions_spell]
  exact parseGlobalOptions_none rfl

theorem parseGlobalOptions_help (words : List GlobalOption) {a : Text} (rest : List Text)
    (opts : GlobalOptions) (h : a = text "-h" ∨ a = text "--help" ∨ a = text "help") :
    parseGlobalOptions (words.flatMap GlobalOption.spell ++ a :: rest) opts = .help := by
  rw [Words.read_words parseGlobalOptions_spell]
  rcases h with rfl | rfl | rfl <;> exact parseGlobalOptions_none rfl

end Options

end WlClip
