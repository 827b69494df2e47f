import WlClip.X11Targets
import WlClip.X11Paste

/-!
# What a paste asks the owner of an X selection for

The names that a paste gives to the targets of the owner, how it comes back from a name to a
target, and when that target is one that the owner has offered.
-/

open ScriptedProgram ScriptedProgram.Prog LittleEndian

namespace WlClip

/-- The target of a conversion that is asked for. -/
def Action.converts : Action → List Atom
  | .xRequest (.convertSelection _ _ target _) => [target]
  | _ => []

namespace X11

/-! ## Names -/

/-- An assignment of names to atoms; what is no atom has no name. -/
structure Naming (nameOf : Atom → Text) : Prop where
  injective : ∀ a b, nameOf a ≠ [] → nameOf a = nameOf b → a = b
  short : ∀ a, (nameOf a).length < 2 ^ 16

/-- What the server says of an atom follows the assignment; a name may fail to be interned. -/
def follows (nameOf : Atom → Text) : Action → Bool
  | .call (.xInternAtom name) (.xInternAtom atom) => atom = 0 ∨ nameOf atom = name
  | .call (.xGetAtomName atom) (.xGetAtomName name) => name = nameOf atom
  | _ => true

def Named (nameOf : Atom → Text) (p : Process) : Prop := ∀ a ∈ p.trace, follows nameOf a = true

def typeName (a : Atoms) (nameOf : Atom → Text) (t : Atom) : Option Text :=
  if t = 0 then none
  else if t = a.utf8String then some (text "text/plain;charset=utf-8")
  else if t = a.string then some (text "text/plain")
  else if t = a.text then some (text "TEXT")
  else if t = a.targets ∨ t = a.timestamp ∨ t = a.multiple then none
  else some (nameOf t)

/-- The types among which a paste chooses. -/
def typeNames (a : Atoms) (nameOf : Atom → Text) (offered : List Atom) : List Text :=
  offered.filterMap (typeName a nameOf)

structure Classic (a : Atoms) (offered : List Atom) (mime : Text) : Prop where
  utf8 : mime = text "text/plain;charset=utf-8" → a.utf8String ∈ offered
  plain : mime = text "text/plain" → a.string ∈ offered

def Listed (display : Text) (sel : Selection) (p : Process) (x : Connection) (offered : List Atom)
    (p' : Process) : Prop :=
  ∃ pc pn raw, connect display p = (.ok (some x), pc) ∧
    requestAndWait x (selectionAtom x.atoms sel) x.atoms.targets pc = (.ok true, pn) ∧
    readProperty x pn = (.ok raw, p') ∧ raw ≠ [] ∧ raw.length % 4 = 0 ∧ offered = decodeAtoms raw

variable {nameOf : Atom → Text} {a : Atoms} {offered : List Atom} {p q : Process} {mime : Text}

theorem typeName_some {t : Atom} (h : typeName a nameOf t = some mime) :
    (t = a.utf8String ∧ mime = text "text/plain;charset=utf-8") ∨
      (t = a.string ∧ mime = text "text/plain") ∨ (t = a.text ∧ mime = text "TEXT") ∨
      (t ≠ a.text ∧ nameOf t = mime) := by
  unfold typeName at h
  split_ifs at h with h0 h1 h2 h3 h4 <;> cases h <;> simp_all

theorem chooseMime_typeNames (h : chooseMime (typeNames a nameOf offered) mime ≠ []) :
    ∃ t ∈ offered, typeName a nameOf t = some (chooseMime (typeNames a nameOf offered) mime) := by
  have hne : typeNames a nameOf offered ≠ [] := by
    intro hnil
    rw [hnil, chooseMime_nil] at h
    exact h rfl
  exact List.mem_filterMap.mp (chooseMime_mem hne mime)

/-- Every preference leads to a classic atom on offer exactly if every type does. -/
theorem classic_all : (∀ prefer, Classic a offered (chooseMime (typeNames a nameOf offered) prefer)) ↔
    ∀ m ∈ typeNames a nameOf offered, Classic a offered m := by
  constructor
  · intro h m hm
    have hchosen : m ≠ [] → chooseMime (typeNames a nameOf offered) m = m :=
      fun hne => chooseMime_self hne hm
    by_cases hne : m = []
    · subst hne
      exact ⟨fun h => absurd h (by decide), fun h => absurd h (by decide)⟩
    · exact hchosen hne ▸ h m
  · intro h prefer
    by_cases hnil : typeNames a nameOf offered = []
    · rw [hnil, chooseMime_nil]
      exact ⟨fun h => absurd h (by decide), fun h => absurd h (by decide)⟩
    · exact h _ (chooseMime_mem hnil prefer)

/-! ## What is asked for -/

/-- Asks the owner for nothing. -/
def Unasking (a : Action) : Prop := a.converts = []

abbrev Silent {α : Type} (prog : Prog Halt Process α) : Prop := Within (Process.Logs Unasking) prog

section Calls

variable {A : Action → Prop}

/-- A paste makes no call that writes. -/
def Calls (A : Action → Prop) : Prop := ∀ c r, c.writes = false → A (.call c r)

theorem Calls.ask (h : Calls A) {α : Type} {c : Call} (hc : c.writes = false)
    (answer : Reply → Option α) : Within (Process.Logs A) (Process.ask c answer) :=
  Process.ask_logs fun r _ _ => h c r hc

theorem Calls.connect (h : Calls A) (display : Text) :
    Within (Process.Logs A) (X11.connect display) := by
  apply Within.bind (h.ask rfl _)
  rintro (_ | ⟨fd, window⟩)
  · exact Within.pure _
  · refine Within.bind ?_ fun _ => Within.pure _
    unfold loadAtoms
    repeat' first
      | exact Within.pure _
      | refine Within.bind (h.ask rfl _) fun _ => ?_

theorem Calls.waitRound (h : Calls A) (fd : Int) (start timeout : ℕ) :
    Within (Process.Logs A) (X11.waitRound fd start timeout ()) := by
  apply Within.bind (h.ask rfl _)
  rintro (_ | _ | _)
  · refine Within.bind (h.ask rfl _) fun now => Within.ite (Within.pure _) ?_
    exact Within.bind (h.ask rfl _) fun _ => Within.pure _
  all_goals exact Within.pure _

theorem Calls.readProperty (h : Calls A) (x : Connection) :
    Within (Process.Logs A) (X11.readProperty x) :=
  Within.loop (fun _ => Within.bind (h.ask rfl _) fun _ => Within.pure _) _

theorem Calls.mimeNames (h : Calls A) (a : Atoms) (ts : List Atom) :
    Within (Process.Logs A) (X11.mimeNames a ts) := by
  induction ts with
  | nil => exact Within.pure _
  | cons t ts ih =>
      have hname : ∀ name : Text, Within (Process.Logs A)
          (do return name :: (← X11.mimeNames a ts)) := fun name =>
        Within.bind ih fun _ => Within.pure _
      refine Within.ite ih (Within.ite (hname _) (Within.ite (hname _) (Within.ite (hname _) ?_)))
      exact Within.ite ih (Within.bind (h.ask rfl _) hname)

theorem Calls.targetAtom (h : Calls A) (a : Atoms) (mime : Text) :
    Within (Process.Logs A) (X11.targetAtom a mime) :=
  Within.ite (Within.pure _) (Within.ite (Within.pure _) (Within.ite (Within.pure _)
    (h.ask rfl _)))

theorem Calls.await (h : Calls A) (x : Connection) : Within (Process.Logs A) (do
    let start ← Process.clock
    loop .stuck (fun _ p => p.size) (X11.waitRound x.fd start timeoutMs) ()) :=
  Within.bind (h.ask rfl _) fun _ => Within.loop (fun _ => h.waitRound _ _ _) ()

theorem Calls.requestAndWait (h : Calls A) (hx : ∀ r, A (.xRequest r)) (x : Connection)
    (selatom target : Atom) : Within (Process.Logs A) (X11.requestAndWait x selatom target) :=
  Within.bind (Process.record_logs (hx _) rfl) fun _ => h.await x

theorem Calls.targets (h : Calls A) (x : Connection) (ok : Bool) :
    Within (Process.Logs A) (if ok = true then do
      let raw ← X11.readProperty x
      if raw = [] ∨ raw.length % 4 ≠ 0 then return none
      else return some (← X11.mimeNames x.atoms (decodeAtoms raw))
    else return none) := by
  refine Within.ite ?_ (Within.pure _)
  refine Within.bind (h.readProperty x) fun raw => Within.ite (Within.pure _) ?_
  exact Within.bind (h.mimeNames _ _) fun _ => Within.pure _

theorem Calls.askTargets (h : Calls A) (hx : ∀ r, A (.xRequest r)) (x : Connection)
    (selatom : Atom) : Within (Process.Logs A) (X11.askTargets x selatom) :=
  Within.bind (h.requestAndWait hx x selatom _) fun ok => h.targets x ok

theorem Calls.askData (h : Calls A) (hx : ∀ r, A (.xRequest r)) (x : Connection)
    (selatom : Atom) (mime : Text) : Within (Process.Logs A) (X11.askData x selatom mime) :=
  Within.ite (Within.pure _) (Within.bind (h.targetAtom _ _) fun _ =>
    Within.ite (Within.pure _) (h.requestAndWait hx _ _ _))

end Calls

theorem silent_calls : Calls Unasking := fun _ _ _ => rfl

theorem any_calls : Calls fun _ => True := fun _ _ _ => trivial

theorem destroy_silent (x : Connection) : Silent (destroy x) :=
  Process.record_logs (show Unasking (.xRequest (.destroyWindow x.window)) from rfl) rfl

/-- A conversion is asked for first, and no other one while the answer is awaited. -/
theorem requestAndWait_asks (x : Connection) (selatom target : Atom) (p : Process) :
    (requestAndWait x selatom target p).2.observe Action.converts =
      p.observe Action.converts ++ [target] := by
  have hrest : Silent (do
      let start ← Process.clock
      loop .stuck (fun _ p => p.size) (waitRound x.fd start timeoutMs) ()) := silent_calls.await x
  let request : XRequest := .convertSelection x.window selatom target x.atoms.wlSelection
  let p₁ : Process := { p with trace := p.trace ++ [.xRequest request] }
  have hsame := (hrest p₁).observe_eq (f := Action.converts) fun _ ha => ha
  change Process.observe Action.converts (_ : Process) = _
  refine hsame.trans ?_
  simp [p₁, request, Process.observe, Action.converts]

/-! ## What the server says -/

theorem Named.before {p q : Process} {A : Action → Prop} (h : Named nameOf q)
    (hlogs : Process.Logs A p q) : Named nameOf p := by
  obtain ⟨log, htrace, -⟩ := hlogs.log
  intro a ha
  exact h a (htrace ▸ List.mem_append_left log ha)

theorem internAtom_named {name : Text} {atom : Atom}
    (h : internAtom name p = (.ok atom, q)) (hnamed : Named nameOf q) :
    atom = 0 ∨ nameOf atom = internName name := by
  obtain ⟨r, rest, -, ha, rfl⟩ := Process.ask_ok h
  cases r with
  | xInternAtom atom' =>
      cases ha
      exact of_decide_eq_true (hnamed _ (List.mem_append_right _ List.mem_cons_self))
  | _ => cases ha

theorem connect_named {display : Text} {x : Connection}
    (h : connect display p = (.ok (some x), q)) (hnamed : Named nameOf q) :
    x.atoms.text = 0 ∨ nameOf x.atoms.text = text "TEXT" := by
  obtain ⟨r, p₀, -, h⟩ := bind_eq_ok h
  rcases r with _ | ⟨fd, window⟩
  · cases h
  obtain ⟨atoms, p', hload, h⟩ := bind_eq_ok h
  cases h
  obtain ⟨clipboard, p₁, -, hload⟩ := bind_eq_ok hload
  obtain ⟨targets, p₂, -, hload⟩ := bind_eq_ok hload
  obtain ⟨timestamp, p₃, -, hload⟩ := bind_eq_ok hload
  obtain ⟨multiple, p₄, -, hload⟩ := bind_eq_ok hload
  obtain ⟨incr, p₅, -, hload⟩ := bind_eq_ok hload
  obtain ⟨utf8String, p₆, -, hload⟩ := bind_eq_ok hload
  obtain ⟨textAtom, p₇, htext, hload⟩ := bind_eq_ok hload
  obtain ⟨wlSelection, p₈, hsel, hload⟩ := bind_eq_ok hload
  obtain ⟨netWmName, p₉, hname, hload⟩ := bind_eq_ok hload
  cases hload
  have hbefore := (hnamed.before ((silent_calls.ask rfl _).of_eq hname)).before
    ((silent_calls.ask rfl _).of_eq hsel)
  exact internAtom_named htext hbefore

theorem mimeNames_named {ts : List Atom} {mimes : List Text} {p q : Process}
    (h : mimeNames a ts p = (.ok mimes, q)) (hnamed : Named nameOf q) :
    mimes = typeNames a nameOf ts := by
  induction ts generalizing p mimes with
  | nil =>
      cases h
      rfl
  | cons t ts ih =>
      have hname : ∀ {name : Text} {p : Process}, typeName a nameOf t = some name →
          (do return name :: (← mimeNames a ts) : Prog Halt Process (List Text)) p = (.ok mimes, q) →
          mimes = typeNames a nameOf (t :: ts) := by
        intro name p hname h
        obtain ⟨rest, p₁, hrest, h⟩ := bind_eq_ok h
        cases h
        rw [typeNames, List.filterMap_cons_some hname, ih hrest]
        rfl
      have hskip : typeName a nameOf t = none → mimeNames a ts p = (.ok mimes, q) →
          mimes = typeNames a nameOf (t :: ts) := by
        intro hnone h
        rw [typeNames, List.filterMap_cons_none hnone]
        exact ih h
      unfold mimeNames at h
      split_ifs at h with h0 h1 h2 h3 h4
      · exact hskip (by simp [typeName, h0]) h
      · exact hname (by rw [typeName, if_neg h0, if_pos h1]) h
      · exact hname (by rw [typeName, if_neg h0, if_neg h1, if_pos h2]) h
      · exact hname (by rw [typeName, if_neg h0, if_neg h1, if_neg h2, if_pos h3]) h
      · exact hskip (by rw [typeName, if_neg h0, if_neg h1, if_neg h2, if_neg h3, if_pos h4]) h
      · obtain ⟨name, p₁, hask, h⟩ := bind_eq_ok h
        obtain ⟨rest, p₂, hrest, h'⟩ := bind_eq_ok h
        cases h'
        have hbefore := hnamed.before ((silent_calls.mimeNames a ts).of_eq hrest)
        obtain ⟨r, replies, -, ha, rfl⟩ := Process.ask_ok hask
        cases r with
        | xGetAtomName name' =>
            cases ha
            have heq : name = nameOf t :=
              of_decide_eq_true (hbefore _ (List.mem_append_right _ List.mem_cons_self))
            refine hname ?_ h
            rw [typeName, if_neg h0, if_neg h1, if_neg h2, if_neg h3, if_neg h4, heq]
        | _ => cases ha

/-! ## From a type back to a target -/

/-- The target for a type on offer is on offer itself, or is the classic atom of a text type whose
place another atom has taken. -/
theorem targetAtom_offered {t : Atom} (hnaming : Naming nameOf)
    (htext : a.text = 0 ∨ nameOf a.text = text "TEXT")
    (hmem : ∃ s ∈ offered, typeName a nameOf s = some mime) (hmime : mime ≠ [])
    (h : targetAtom a mime p = (.ok t, q)) (hnamed : Named nameOf q) (ht : t ≠ 0) :
    t ∈ offered ↔ Classic a offered mime := by
  obtain ⟨s, hs, hname⟩ := hmem
  unfold targetAtom at h
  split_ifs at h with h1 h2 h3
  · cases h
    subst h1
    exact ⟨fun hin => ⟨fun _ => hin, fun h => absurd h (by decide)⟩, fun hc => hc.utf8 rfl⟩
  · cases h
    subst h2
    exact ⟨fun hin => ⟨fun h => absurd h (by decide), fun _ => hin⟩, fun hc => hc.plain rfl⟩
  · cases h
    subst h3
    refine ⟨fun _ => ⟨fun h => absurd h (by decide), fun h => absurd h (by decide)⟩, fun _ => ?_⟩
    rcases typeName_some hname with ⟨-, h⟩ | ⟨-, h⟩ | ⟨rfl, -⟩ | ⟨-, h⟩
    · exact absurd h (by decide)
    · exact absurd h (by decide)
    · exact hs
    · have hnamed := htext.resolve_left ht
      have heq := hnaming.injective s a.text (h ▸ hmime) (h.trans hnamed.symm)
      exact heq ▸ hs
  · refine ⟨fun _ => ⟨fun h => absurd h h1, fun h => absurd h h2⟩, fun _ => ?_⟩
    rcases typeName_some hname with ⟨-, h⟩ | ⟨-, h⟩ | ⟨-, h⟩ | ⟨-, hs'⟩
    · exact absurd h h1
    · exact absurd h h2
    · exact absurd h h3
    · have hshort : internName mime = mime := by
        have hlen := hnaming.short s
        rw [hs'] at hlen
        rw [internName, Nat.mod_eq_of_lt hlen, List.take_length]
      have hintern := (internAtom_named h hnamed).resolve_left ht
      rw [hshort, ← hs'] at hintern
      have heq := hnaming.injective s t (hs' ▸ hmime) hintern.symm
      exact heq ▸ hs

/-! ## The conversions of a paste -/

section

variable {x : Connection} {selatom : Atom}

theorem askTargets_asks (x : Connection) (selatom : Atom) (p : Process) :
    (askTargets x selatom p).2.observe Action.converts =
      p.observe Action.converts ++ [x.atoms.targets] := by
  have hasks := requestAndWait_asks x selatom x.atoms.targets p
  let J : Process → Prop := fun q =>
    q.observe Action.converts = p.observe Action.converts ++ [x.atoms.targets]
  apply bind_reached (J := J)
  · intro e q h
    rw [h] at hasks
    exact hasks
  · intro ok q h
    rw [h] at hasks
    exact ((silent_calls.targets x ok q).observe_eq fun _ ha => ha).trans hasks

theorem askTargets_listed {display : Text} {sel : Selection} {pc : Process} {mimes : List Text}
    (hconnect : connect display p = (.ok (some x), pc))
    (h : askTargets x (selectionAtom x.atoms sel) pc = (.ok (some mimes), q))
    (hnamed : Named nameOf q) :
    ∃ offered p', Listed display sel p x offered p' ∧ mimes = typeNames x.atoms nameOf offered := by
  obtain ⟨ok, pn, hwait, h⟩ := bind_eq_ok h
  cases ok
  · cases h
  obtain ⟨raw, p', hread, h⟩ := bind_eq_ok h
  split_ifs at h with hraw
  · cases h
  obtain ⟨names, q', hnames, h⟩ := bind_eq_ok h
  cases h
  push Not at hraw
  exact ⟨decodeAtoms raw, p', ⟨pc, pn, raw, hconnect, hwait, hread, hraw.1, hraw.2, rfl⟩,
    mimeNames_named hnames hnamed⟩

/-- Where a type is asked for, its target is the one that the type leads to. -/
theorem askData_asks (x : Connection) (selatom : Atom) (mime : Text) (p : Process) :
    (askData x selatom mime p).2.observe Action.converts = p.observe Action.converts ∨
    ∃ t p₁, mime ≠ [] ∧ t ≠ 0 ∧ targetAtom x.atoms mime p = (.ok t, p₁) ∧
      (askData x selatom mime p).2.observe Action.converts = p.observe Action.converts ++ [t] ∧
      Process.Logs (fun _ => True) p₁ (askData x selatom mime p).2 := by
  unfold askData
  split_ifs with hmime
  · exact .inl rfl
  have htarget := (silent_calls.targetAtom x.atoms mime p).observe_eq (f := Action.converts)
    fun _ h => h
  apply bind_reached (J := fun q => q.observe Action.converts = _ ∨ ∃ t p₁, mime ≠ [] ∧ t ≠ 0 ∧
    targetAtom x.atoms mime p = (.ok t, p₁) ∧ q.observe Action.converts = _ ++ [t] ∧
    Process.Logs (fun _ => True) p₁ q)
  · intro e q h
    rw [h] at htarget
    exact .inl htarget
  · intro t q h
    rw [h] at htarget
    by_cases ht : t = 0
    · rw [if_pos ht]
      exact .inl htarget
    · rw [if_neg ht]
      refine .inr ⟨t, q, hmime, ht, h, ?_, any_calls.requestAndWait (fun _ => trivial) x selatom t q⟩
      rw [requestAndWait_asks, htarget]

end

/-- What a paste has asked for: at most one target after the list, as its condition says. -/
def Judged (nameOf : Atom → Text) (display : Text) (sel : Selection) (preferMime : Text)
    (p q : Process) : Prop :=
  Named nameOf q → (q.observe Action.converts).length ≤ 2 ∧
    ∀ t₀ t, q.observe Action.converts = [t₀, t] → ∃ x offered p',
      Listed display sel p x offered p' ∧ (t ∈ offered ↔ Classic x.atoms offered
        (chooseMime (typeNames x.atoms nameOf offered) preferMime))

section

variable {display preferMime : Text} {sel : Selection} {q' : Process}

theorem judged_short (h : (q.observe Action.converts).length ≤ 1) :
    Judged nameOf display sel preferMime p q :=
  fun _ => ⟨h.trans (by decide), fun t₀ t heq => by
    rw [heq] at h
    exact absurd h (by simp)⟩

theorem Judged.after (h : Judged nameOf display sel preferMime p q)
    (hlogs : Process.Logs Unasking q q') : Judged nameOf display sel preferMime p q' := by
  intro hnamed
  rw [hlogs.observe_eq fun _ ha => ha]
  exact h (hnamed.before hlogs)

end

end X11

namespace X11Backend

open X11

variable {nameOf : Atom → Text} {display : Text} {sel : Selection} {preferMime : Text}
  {p pc q : Process} {x : X11.Connection} {mimes : List Text}

theorem pasteData_judged (hnaming : Naming nameOf)
    (hconnect : connect display p = (.ok (some x), pc))
    (htext : Named nameOf pc → x.atoms.text = 0 ∨ nameOf x.atoms.text = text "TEXT")
    (h : askTargets x (selectionAtom x.atoms sel) pc = (.ok (some mimes), q))
    (hasks : q.observe Action.converts = [x.atoms.targets]) :
    Judged nameOf display sel preferMime p (((do
      let mime := chooseMime mimes preferMime
      if ← askData x (selectionAtom x.atoms sel) mime then
        let bytes ← readProperty x
        return (true, ⟨mime, bytes, mimes⟩)
      else return (false, ⟨[], [], mimes⟩)) : Prog Halt Process (Bool × PasteResult)) q).2 := by
  let mime := chooseMime mimes preferMime
  have hdata : Judged nameOf display sel preferMime p
      (askData x (selectionAtom x.atoms sel) mime q).2 := by
    rcases askData_asks x (selectionAtom x.atoms sel) mime q with hsame | hasked
    · exact judged_short ((hsame.trans hasks) ▸ Nat.le_refl 1)
    obtain ⟨t, p₁, hmime, ht, htarget, hconv, hlogs⟩ := hasked
    rw [hasks] at hconv
    intro hnamed
    have hnamed₁ := hnamed.before hlogs
    have hnamed₀ := hnamed₁.before ((silent_calls.targetAtom _ _).of_eq htarget)
    obtain ⟨offered, p', hlisted, rfl⟩ := askTargets_listed hconnect h hnamed₀
    have hbefore := hnamed₀.before ((any_calls.askTargets (fun _ => trivial) _ _).of_eq h)
    rw [hconv]
    refine ⟨Nat.le_refl 2, fun t₀ t' heq => ⟨x, offered, p', hlisted, ?_⟩⟩
    obtain ⟨-, rfl⟩ : x.atoms.targets = t₀ ∧ t = t' := by simpa using heq
    exact targetAtom_offered hnaming (htext hbefore) (chooseMime_typeNames hmime) hmime htarget
      hnamed₁ ht
  apply bind_reached
  · intro e q' h'
    rw [h'] at hdata
    exact hdata
  · rintro (_ | _) q' h'
    · rw [h'] at hdata
      exact hdata
    · rw [h'] at hdata
      exact hdata.after ((Within.bind (silent_calls.readProperty x) fun _ => Within.pure _ :
        Silent (do
          let bytes ← readProperty x
          return (true, (⟨mime, bytes, mimes⟩ : PasteResult)))) q')

theorem pasteFrom_judged (hnaming : Naming nameOf) (listOnly : Bool)
    (hconnect : connect display p = (.ok (some x), pc)) (hnone : pc.observe Action.converts = [])
    (htext : Named nameOf pc → x.atoms.text = 0 ∨ nameOf x.atoms.text = text "TEXT") :
    Judged nameOf display sel preferMime p (pasteFrom x sel preferMime listOnly pc).2 := by
  have hasks := askTargets_asks x (selectionAtom x.atoms sel) pc
  rw [hnone, List.nil_append] at hasks
  apply bind_reached
  · intro e q h
    rw [h] at hasks
    exact judged_short (hasks ▸ Nat.le_refl 1)
  rintro mimes q h
  rw [h] at hasks
  have hshort : Judged nameOf display sel preferMime p q := judged_short (hasks ▸ Nat.le_refl 1)
  rcases mimes with _ | mimes
  · exact hshort
  cases listOnly with
  | true => exact hshort
  | false => exact pasteData_judged hnaming hconnect htext h hasks

/-- A paste asks for the list and then for at most one target. That is on offer exactly if the type
chosen is none of plain text or has its classic atom on offer; and whatever type is preferred, if
every type on offer is so. -/
theorem paste_converts_iff (hnaming : Naming nameOf) (display : Text) (sel : Selection)
    (preferMime : Text) (listOnly : Bool) (hp : p.trace = [])
    (hnamed : Named nameOf (paste display sel preferMime listOnly p).2) :
    let asked := (paste display sel preferMime listOnly p).2.observe Action.converts
    asked.length ≤ 2 ∧
    (∀ t₀ t, asked = [t₀, t] → ∃ x offered p', Listed display sel p x offered p' ∧
      (t ∈ offered ↔ Classic x.atoms offered
        (chooseMime (typeNames x.atoms nameOf offered) preferMime))) ∧
    ∀ a offered, (∀ prefer, Classic a offered (chooseMime (typeNames a nameOf offered) prefer)) ↔
      ∀ m ∈ typeNames a nameOf offered, Classic a offered m := by
  have hnone : (connect display p).2.observe Action.converts = [] := by
    rw [(silent_calls.connect display p).observe_eq fun _ ha => ha, Process.observe, hp]
    rfl
  have hjudged :
      Judged nameOf display sel preferMime p (paste display sel preferMime listOnly p).2 := by
    apply bind_reached
    · intro e q h
      rw [h] at hnone
      exact judged_short (hnone ▸ Nat.zero_le 1)
    rintro x q h
    rw [h] at hnone
    rcases x with _ | x
    · exact judged_short (hnone ▸ Nat.zero_le 1)
    have hfrom : Judged nameOf display sel preferMime p (pasteFrom x sel preferMime listOnly q).2 :=
      pasteFrom_judged hnaming listOnly h hnone fun hnamed => connect_named h hnamed
    apply bind_reached
    · intro e q' h'
      rw [h'] at hfrom
      exact hfrom
    · intro r q' h'
      rw [h'] at hfrom
      exact hfrom.after ((Within.bind (destroy_silent x) fun _ => Within.pure r) q')
  obtain ⟨hlength, hasked⟩ := hjudged hnamed
  exact ⟨hlength, hasked, fun _ _ => classic_all⟩

theorem listed_of {pc pn p' : Process} {raw : List UInt8} (hc : (connect display p).2 = pc)
    (hconnect : (connect display p).1 = .ok (some x))
    (hn : (requestAndWait x (selectionAtom x.atoms sel) x.atoms.targets pc).2 = pn)
    (hwait : (requestAndWait x (selectionAtom x.atoms sel) x.atoms.targets pc).1 = .ok true)
    (hp' : (readProperty x pn).2 = p') (hread : (readProperty x pn).1 = .ok raw)
    (hraw : raw ≠ [] ∧ raw.length % 4 = 0) : Listed display sel p x (decodeAtoms raw) p' :=
  ⟨pc, pn, raw, Prod.ext hconnect hc, Prod.ext hwait hn, Prod.ext hread hp', hraw.1, hraw.2, rfl⟩

def nameIn (table : List (Atom × Text)) (a : Atom) : Text :=
  ((table.find? fun n => n.1 = a).map Prod.snd).getD []

theorem naming_nameIn {table : List (Atom × Text)}
    (hinj : ∀ x ∈ table, ∀ y ∈ table, x.2 = y.2 → x.1 = y.1)
    (hshort : ∀ x ∈ table, x.2.length < 2 ^ 16) : Naming (nameIn table) := by
  have hfound : ∀ a, nameIn table a ≠ [] → ∃ n ∈ table, n.1 = a ∧ nameIn table a = n.2 := by
    intro a ha
    rcases h : table.find? fun n => n.1 = a with _ | n
    · rw [nameIn, h] at ha
      exact absurd rfl ha
    · exact ⟨n, List.mem_of_find?_eq_some h, by simpa using List.find?_some h, by simp [nameIn, h]⟩
  refine ⟨fun a b ha hab => ?_, fun a => ?_⟩
  · obtain ⟨n, hn, rfl, hname⟩ := hfound a ha
    obtain ⟨m, hm, rfl, hname'⟩ := hfound b (hab ▸ ha)
    exact hinj n hn m hm (hname.symm.trans (hab.trans hname'))
  · by_cases ha : nameIn table a = []
    · rw [ha]
      decide
    · obtain ⟨n, hn, -, hname⟩ := hfound a ha
      exact hname ▸ hshort n hn

/-- The names of the atoms that a paste interns, and of another one. -/
def interned : List (Atom × Text) :=
  [(300, text "CLIPBOARD"), (301, text "TARGETS"), (302, text "TIMESTAMP"),
    (303, text "MULTIPLE"), (304, text "INCR"), (305, text "UTF8_STRING"), (306, text "TEXT"),
    (307, text "WLCLIP_SELECTION"), (308, text "_NET_WM_NAME"),
    (400, text "text/plain;charset=utf-8")]

theorem naming_interned : Naming (nameIn interned) :=
  naming_nameIn (by decide +kernel) (by decide +kernel)

theorem paste_converts_classic :
    let p := asking [.xGetProperty (some (Property.reply hi 0 longLength))]
    (paste [] .regular [] false p).2.observe Action.converts = [301, 305] ∧
    ∃ x offered p', Listed [] .regular p x offered p' ∧
      ((305 : Atom) ∈ offered ↔ Classic x.atoms offered
        (chooseMime (typeNames x.atoms (nameIn interned) offered) [])) := by
  intro p
  have hasked : (paste [] .regular [] false p).2.observe Action.converts = [301, 305] := by
    decide +kernel
  have hnamed : Named (nameIn interned) (paste [] .regular [] false p).2 :=
    List.all_eq_true.mp (by decide +kernel)
  exact ⟨hasked, (paste_converts_iff naming_interned [] .regular [] false rfl hnamed).2.1 _ _ hasked⟩

/-- The process of a paste whose owner offers an atom with the name of the type only. -/
def askingNamed : Process where
  script := .xConnect (some (3, 42)) ::
    [300, 301, 302, 303, 304, 305, 306, 307, 308].map .xInternAtom ++
    [.clock 0, .xPollForEvent (some (.selectionNotify ⟨0, 42, 300, 301, 307⟩)),
      .xGetProperty (some ⟨atomAtom, u32Bytes 400, 0⟩),
      .xGetAtomName (text "text/plain;charset=utf-8"), .clock 5]
  trace := []
  sigpipe := .default
  getenv := fun _ => none

/-- The owner offers the type under its own name only, and another atom is asked for. -/
theorem paste_converts_unoffered :
    Naming (nameIn interned) ∧ Named (nameIn interned) (paste [] .regular [] false askingNamed).2 ∧
    (paste [] .regular [] false askingNamed).2.observe Action.converts = [301, 305] ∧
    (∃ p', Listed [] .regular askingNamed ⟨3, 42, atoms⟩ [400] p') ∧
    (305 : Atom) ∉ [(400 : Atom)] := by
  have hlisted : Listed [] .regular askingNamed ⟨3, 42, atoms⟩ (decodeAtoms (u32Bytes 400)) _ :=
    listed_of rfl (by decide +kernel) rfl (by decide +kernel) rfl (by decide +kernel)
      (by decide +kernel)
  exact ⟨naming_interned, List.all_eq_true.mp (by decide +kernel), by decide +kernel,
    ⟨_, hlisted⟩, by decide⟩

end X11Backend

end WlClip
