import WlClip.X11
import Mathlib.Data.Fintype.Card
import Mathlib.Data.List.Nodup

/-!
# The targets that an X11 copy advertises

Targets are added one by one, but none without an atom and none whose atom is there already, so an
atom has the name that it was first added under. A server assigns atoms to names; what it was asked
and has answered is in the log, and what the copy advertises is a function of the assignment.
-/

open ScriptedProgram ScriptedProgram.Prog LittleEndian

namespace WlClip

namespace X11

/-! ## Adding targets -/

/-- Each atom is advertised once, and 0 is none. -/
structure Advertised (ts : List Target) : Prop where
  nodup : (ts.map Target.atom).Nodup
  nonzero : ∀ t ∈ ts, t.atom ≠ 0

variable {ts : List Target}

theorem Advertised.add (h : Advertised ts) (t : Target) : Advertised (addTarget ts t) := by
  unfold addTarget
  split_ifs with hzero hthere
  · exact h
  · exact h
  · refine ⟨?_, fun u hu => ?_⟩
    · rw [List.map_append]
      exact List.nodup_append.mpr ⟨h.nodup, List.nodup_singleton _, by
        rintro a ha b (_ | ⟨_, ⟨⟩⟩) rfl
        exact hthere ha⟩
    · rcases List.mem_append.mp hu with hu | hu
      · exact h.nonzero u hu
      · rwa [List.mem_singleton.mp hu]

theorem Advertised.addAll (h : Advertised ts) (new : List Target) :
    Advertised (new.foldl addTarget ts) := by
  induction new generalizing ts with
  | nil => exact h
  | cons t new ih => exact ih (h.add t)

theorem advertised_nil : Advertised [] := ⟨List.nodup_nil, nofun⟩

/-- There are fewer targets than atoms. -/
theorem Advertised.length_lt (h : Advertised ts) : ts.length < 2 ^ 32 := by
  let numbers := (0 :: ts.map Target.atom).map fun a => a.toBitVec.toFin
  have hnodup : numbers.Nodup := by
    refine List.Nodup.map (fun a b hab => ?_) (List.nodup_cons.mpr ⟨?_, h.nodup⟩)
    · exact UInt32.eq_of_toBitVec_eq (BitVec.eq_of_toFin_eq hab)
    · intro hmem
      obtain ⟨t, ht, hzero⟩ := List.mem_map.mp hmem
      exact h.nonzero t ht hzero
  have hcard := hnodup.length_le_card
  rw [Fintype.card_fin, List.length_map, List.length_cons, List.length_map] at hcard
  exact hcard

/-- The name of an atom is the first of those that it was to be added under. -/
theorem find_addTarget {a : Atom} (ha : a ≠ 0) (ts : List Target) (t : Target) :
    (addTarget ts t).find? (fun t => t.atom = a) = (ts ++ [t]).find? fun t => t.atom = a := by
  unfold addTarget
  split_ifs with hzero hthere
  · have hne : t.atom ≠ a := fun h => ha (h.symm.trans hzero)
    simp [List.find?_append, hne]
  · by_cases h : t.atom = a
    · obtain ⟨u, hu, hatom⟩ := List.mem_map.mp hthere
      have hsome : (ts.find? fun t => t.atom = a).isSome = true :=
        List.find?_isSome.mpr ⟨u, hu, decide_eq_true (hatom.trans h)⟩
      obtain ⟨v, hv⟩ := Option.isSome_iff_exists.mp hsome
      rw [List.find?_append, hv]
      rfl
    · simp [List.find?_append, h]
  · rfl

theorem find_addAll {a : Atom} (ha : a ≠ 0) (ts new : List Target) :
    (new.foldl addTarget ts).find? (fun t => t.atom = a) =
      (ts ++ new).find? fun t => t.atom = a := by
  induction new generalizing ts with
  | nil => rw [List.foldl_nil, List.append_nil]
  | cons t new ih =>
      rw [List.foldl_cons, ih, List.find?_append, find_addTarget ha, ← List.find?_append,
        List.append_assoc]
      rfl

theorem mem_addAll {a : Atom} (ha : a ≠ 0) (ts new : List Target) :
    a ∈ (new.foldl addTarget ts).map Target.atom ↔ a ∈ (ts ++ new).map Target.atom := by
  have hmem : ∀ l : List Target,
      a ∈ l.map Target.atom ↔ (l.find? fun t => t.atom = a).isSome = true := by
    intro l
    simp [List.find?_isSome]
  rw [hmem, hmem, find_addAll ha]

/-- What is added: `TARGETS`, the names that are not textual, and `UTF8_STRING` for those that are. -/
def candidates (a : Atoms) (interned : List Target) (mimes : List Text) : List Target :=
  ⟨a.targets, text "TARGETS"⟩ ::
    (interned ++ if mimes.any isTextual then [⟨a.utf8String, text "UTF8_STRING"⟩] else [])

theorem buildTargets_ok {a : Atoms} {mimes : List Text} {p q : Process}
    (h : buildTargets a mimes p = (.ok ts, q)) : ∃ interned,
      internAll (mimes.filter fun m => !isTextual m) p = (.ok interned, q) ∧
        ts = (candidates a interned mimes).foldl addTarget [] := by
  obtain ⟨interned, p₁, hintern, h⟩ := bind_eq_ok h
  cases h
  refine ⟨interned, hintern, ?_⟩
  by_cases htext : mimes.any isTextual <;> simp [candidates, htext]

theorem buildTargets_advertised {a : Atoms} {mimes : List Text} {p q : Process}
    (h : buildTargets a mimes p = (.ok ts, q)) : Advertised ts := by
  obtain ⟨interned, -, rfl⟩ := buildTargets_ok h
  exact advertised_nil.addAll _

/-! ## The server's atoms -/

/-- Every name that the server was asked for got its atom. -/
def AssignedBy (atomOf : Text → Atom) (p : Process) : Prop :=
  ∀ name atom, .call (.xInternAtom name) (.xInternAtom atom) ∈ p.trace → atom = atomOf name

def assignedIn (atomOf : Text → Atom) : Action → Bool
  | .call (.xInternAtom name) (.xInternAtom atom) => atom = atomOf name
  | _ => true

theorem assignedBy_of_all {atomOf : Text → Atom} {p : Process}
    (h : p.trace.all (assignedIn atomOf) = true) : AssignedBy atomOf p :=
  fun _ _ hmem => of_decide_eq_true (List.all_eq_true.mp h _ hmem)

/-- A fact that follows from the server's answers so far. -/
def Told (atomOf : Text → Atom) (φ : Prop) (p : Process) : Prop := AssignedBy atomOf p → φ

variable {atomOf : Text → Atom} {φ : Prop}

theorem told_keeps {α : Type} {prog : Prog Halt Process α}
    (h : Within (Process.Logs fun _ => True) prog) :
    Triple (Told atomOf φ) prog (fun _ => Told atomOf φ) (fun _ _ => True) := by
  refine (h.keeps fun p q hlogs htold hassigned => ?_).returns
  obtain ⟨log, htrace, -⟩ := hlogs.log
  apply htold
  intro name atom hmem
  exact hassigned name atom (htrace ▸ List.mem_append_left log hmem)

theorem internAtom_told (name : Text) :
    Triple (Told atomOf φ) (internAtom name)
      (fun atom => Told atomOf (φ ∧ atom = atomOf (internName name))) (fun _ _ => True) := by
  have hkeeps : Triple (Told atomOf φ) (internAtom name) (fun _ => Told atomOf φ)
      (fun _ _ => True) := told_keeps (Process.ask_logs fun _ _ _ => trivial)
  have hanswer : Triple (fun _ => True) (internAtom name)
      (fun atom => Told atomOf (atom = atomOf (internName name))) (fun _ _ => True) := by
    intro p _
    rcases hr : internAtom name p with ⟨e | atom, q⟩
    · trivial
    · obtain ⟨r, rest, -, ha, rfl⟩ := Process.ask_ok hr
      cases r with
      | xInternAtom atom' =>
          cases ha
          exact fun hassigned => hassigned _ _ (List.mem_append_right _ List.mem_cons_self)
      | _ => cases ha
  exact (hkeeps.and hanswer).conseq (fun _ h => ⟨h, trivial⟩)
    (fun _ _ h hassigned => ⟨h.1 hassigned, h.2 hassigned⟩) fun _ _ _ => trivial

/-- The atoms that the code goes by, as the server assigned them or X defines them. -/
def atomsOf (atomOf : Text → Atom) : Atoms where
  clipboard := atomOf (text "CLIPBOARD")
  primary := atomPrimary
  targets := atomOf (text "TARGETS")
  timestamp := atomOf (text "TIMESTAMP")
  multiple := atomOf (text "MULTIPLE")
  incr := atomOf (text "INCR")
  utf8String := atomOf (text "UTF8_STRING")
  string := atomString
  text := atomOf (text "TEXT")
  wlSelection := atomOf (text "WLCLIP_SELECTION")
  netWmName := atomOf (text "_NET_WM_NAME")

theorem loadAtoms_told : Triple (Told atomOf φ) loadAtoms
    (fun a => Told atomOf (φ ∧ a = atomsOf atomOf)) (fun _ _ => True) := by
  apply Triple.bind (internAtom_told (text "CLIPBOARD"))
  intro clipboard
  apply Triple.bind (internAtom_told (text "TARGETS"))
  intro targets
  apply Triple.bind (internAtom_told (text "TIMESTAMP"))
  intro timestamp
  apply Triple.bind (internAtom_told (text "MULTIPLE"))
  intro multiple
  apply Triple.bind (internAtom_told (text "INCR"))
  intro incr
  apply Triple.bind (internAtom_told (text "UTF8_STRING"))
  intro utf8String
  apply Triple.bind (internAtom_told (text "TEXT"))
  intro textAtom
  apply Triple.bind (internAtom_told (text "WLCLIP_SELECTION"))
  intro wlSelection
  apply Triple.bind (internAtom_told (text "_NET_WM_NAME"))
  intro netWmName
  apply Triple.pure
  intro p h hassigned
  obtain ⟨⟨⟨⟨⟨⟨⟨⟨⟨hφ, rfl⟩, rfl⟩, rfl⟩, rfl⟩, rfl⟩, rfl⟩, rfl⟩, rfl⟩, rfl⟩ := h hassigned
  exact ⟨hφ, rfl⟩

theorem connect_told {display : Text} {x : Connection} {p q : Process}
    (h : connect display p = (.ok (some x), q)) : Told atomOf (x.atoms = atomsOf atomOf) q := by
  have hrun : Triple (Told atomOf True) (connect display) (fun x => Told atomOf
      (∀ y, x = some y → y.atoms = atomsOf atomOf)) (fun _ _ => True) := by
    apply Triple.bind (told_keeps (Process.ask_logs fun _ _ _ => trivial))
    rintro (_ | ⟨fd, window⟩)
    · exact Triple.pure _ fun _ _ _ => nofun
    apply Triple.bind loadAtoms_told
    intro atoms
    apply Triple.pure
    rintro p h hassigned _ ⟨⟩
    exact (h hassigned).2
  intro hassigned
  exact hrun.ok h (fun _ => trivial) hassigned _ rfl

theorem internAll_told (names : List Text) : Triple (Told atomOf φ) (internAll names)
    (fun ts => Told atomOf (φ ∧ ts = names.map fun m => ⟨atomOf (internName m), m⟩))
    (fun _ _ => True) := by
  induction names generalizing φ with
  | nil => exact Triple.pure _ fun _ h hassigned => ⟨h hassigned, rfl⟩
  | cons m names ih =>
      apply Triple.bind (internAtom_told m)
      intro atom
      apply Triple.bind ih
      intro ts
      apply Triple.pure
      intro p h hassigned
      obtain ⟨⟨hφ, hatom⟩, hts⟩ := h hassigned
      refine ⟨hφ, ?_⟩
      rw [hatom, hts, List.map_cons]

/-! ## An acquired selection -/

def advertised (atomOf : Text → Atom) (mimes : List Text) : List Target :=
  (candidates (atomsOf atomOf)
    ((mimes.filter fun m => !isTextual m).map fun m => ⟨atomOf (internName m), m⟩) mimes).foldl
    addTarget []

/-- What the copy goes by is what its list makes of the server's atoms. -/
structure Acquired (atomOf : Text → Atom) (sel : Selection) (data : CopyData) (ctx : CopyContext) :
    Prop where
  atoms : ctx.x.atoms = atomsOf atomOf
  targets : ctx.targets = advertised atomOf data.mimeTypes
  selatom : ctx.selatom = selectionAtom (atomsOf atomOf) sel
  data : ctx.data = data

variable {display : Text} {sel : Selection} {data : CopyData} {ctx : CopyContext} {p q : Process}

/-- A copy that has its selection went through all steps of the acquisition. -/
theorem acquireSelection_ok (h : acquireSelection display sel data p = (.ok (some ctx), q)) :
    ∃ p₁ p₂, connect display p = (.ok (some ctx.x), p₁) ∧
      buildTargets ctx.x.atoms data.mimeTypes p₁ = (.ok ctx.targets, p₂) ∧
      ctx.selatom = selectionAtom ctx.x.atoms sel ∧ ctx.data = data ∧
      Process.Logs (fun _ => True) p₂ q := by
  unfold acquireSelection at h
  split_ifs at h with hmimes
  · cases h
  obtain ⟨x, p₁, hconnect, h⟩ := bind_eq_ok h
  rcases x with _ | x
  · cases h
  obtain ⟨targets, p₂, hbuild, h⟩ := bind_eq_ok h
  obtain ⟨_, p₃, hown, h⟩ := bind_eq_ok h
  obtain ⟨owner, p₄, hask, h⟩ := bind_eq_ok h
  split_ifs at h with howner
  · cases h
    have hlogs : Process.Logs (fun _ => True) p₂ p₃ :=
      (Process.record_logs (A := fun _ => True) trivial rfl).of_eq hown
    have hlogs' : Process.Logs (fun _ => True) p₃ q :=
      (Process.ask_logs (A := fun _ => True) fun _ _ _ => trivial).of_eq hask
    exact ⟨p₁, p₂, hconnect, hbuild, rfl, rfl, hlogs.trans hlogs'⟩
  · obtain ⟨_, p₅, -, h⟩ := bind_eq_ok h
    cases h

theorem acquireSelection_advertised
    (h : acquireSelection display sel data p = (.ok (some ctx), q)) : Advertised ctx.targets := by
  obtain ⟨p₁, p₂, -, hbuild, -⟩ := acquireSelection_ok h
  exact buildTargets_advertised hbuild

theorem acquireSelection_acquired
    (h : acquireSelection display sel data p = (.ok (some ctx), q)) (hassigned : AssignedBy atomOf q) :
    Acquired atomOf sel data ctx := by
  obtain ⟨p₁, p₂, hconnect, hbuild, hselatom, hdata, hlogs⟩ := acquireSelection_ok h
  have hatoms : Told atomOf (ctx.x.atoms = atomsOf atomOf) p₁ := connect_told hconnect
  obtain ⟨interned, hintern, htargets⟩ := buildTargets_ok hbuild
  have hall := (internAll_told _).ok hintern hatoms
  have hbefore : AssignedBy atomOf p₂ := by
    obtain ⟨log, htrace, -⟩ := hlogs.log
    intro name atom hmem
    exact hassigned name atom (htrace ▸ List.mem_append_left log hmem)
  obtain ⟨hx, rfl⟩ := hall hbefore
  rw [hx] at htargets hselatom
  exact ⟨hx, htargets, hselatom, hdata⟩

end X11

end WlClip
