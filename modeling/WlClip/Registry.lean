import WlClip.State
import Mathlib.Data.List.Infix
import Mathlib.Data.List.Induction

/-!
# The registry and its mirror

The registry announces globals and takes them back. `State` keeps them in `globals`, and beside it
the seats and, for each of two manager interfaces, the global that its proxy was bound to. A removal
leaves the seats as they are and can only empty the place of a manager, so the mirror follows the
registry while no seat goes and no manager goes that has taken the place of another.
-/

open ScriptedProgram ScriptedProgram.Prog

namespace WlClip

/-! ## The registry -/

inductive RegistryEvent
  | global (g : GlobalInfo)
  | globalRemove (name : UInt32)

namespace RegistryEvent

def next (gs : List GlobalInfo) : RegistryEvent → List GlobalInfo
  | .global g => gs ++ [g]
  | .globalRemove name => gs.filter fun g => g.name ≠ name

def alive (es : List RegistryEvent) : List GlobalInfo := es.foldl next []

end RegistryEvent

/-- The global with the interface that was announced last. -/
def latest (interface : Text) (gs : List GlobalInfo) : Option GlobalInfo :=
  (gs.filter fun g => g.interface = interface).getLast?

section Latest

variable {interface : Text} {gs : List GlobalInfo} {g : GlobalInfo} {name : UInt32}

theorem latest_append (gs : List GlobalInfo) (g : GlobalInfo) : latest interface (gs ++ [g]) =
    if g.interface = interface then some g else latest interface gs := by
  unfold latest
  by_cases h : g.interface = interface <;> simp [h]

theorem latest_mem (h : latest interface gs = some g) : g ∈ gs ∧ g.interface = interface := by
  simpa using List.mem_of_getLast? h

theorem latest_none (h : latest interface gs = none) : ∀ g ∈ gs, g.interface ≠ interface := by
  simpa [latest] using h

theorem latest_filter_none : latest interface (gs.filter fun g => g.name ≠ name) = none ↔
    ∀ g ∈ gs, g.interface = interface → g.name = name := by
  simp [latest]

theorem latest_filter (h : latest interface gs = some g) (hname : g.name ≠ name) :
    latest interface (gs.filter fun g => g.name ≠ name) = some g := by
  obtain ⟨before, hbefore⟩ := List.getLast?_eq_some_iff.mp h
  have hcomm : (gs.filter fun g => g.name ≠ name).filter (fun g => g.interface = interface) =
      (before ++ [g]).filter fun g => g.name ≠ name := by
    rw [← hbefore, List.filter_filter, List.filter_filter]
    simp only [Bool.and_comm]
  rw [latest, hcomm]
  simp [hname]

end Latest

/-! ## The place of a manager -/

/-- Whether there is a proxy, and the name and version of the global it was last bound to. -/
structure Slot where
  bound : Bool
  name : UInt32
  version : UInt32

namespace Slot

/-- There is a proxy exactly when there is a global, and it was bound to one that there is. -/
structure Mirrors (interface : Text) (cap : UInt32) (gs : List GlobalInfo) (slot : Slot) : Prop where
  bound : slot.bound = true ↔ ∃ g ∈ gs, g.interface = interface
  origin : slot.bound = true → ∃ g ∈ gs, g.interface = interface ∧ g.name = slot.name ∧
    slot.version = min g.version cap

def announce (interface : Text) (cap : UInt32) (g : GlobalInfo) (slot : Slot) : Slot :=
  if g.interface = interface then ⟨true, g.name, min g.version cap⟩ else slot

def remove (name : UInt32) (slot : Slot) : Slot :=
  if name = slot.name ∧ slot.bound then { slot with bound := false } else slot

/-- The proxy was bound to the last global. -/
def Follows (interface : Text) (cap : UInt32) (gs : List GlobalInfo) (slot : Slot) : Prop :=
  match latest interface gs with
  | none => slot.bound = false
  | some g => slot = ⟨true, g.name, min g.version cap⟩

variable {interface : Text} {cap : UInt32} {gs : List GlobalInfo} {slot : Slot} {name : UInt32}

theorem Follows.mirrors (h : Follows interface cap gs slot) : Mirrors interface cap gs slot := by
  unfold Follows at h
  split at h
  · next hlatest =>
    have hnone := latest_none hlatest
    refine ⟨⟨fun hbound => ?_, fun ⟨g, hg, hi⟩ => absurd hi (hnone g hg)⟩, fun hbound => ?_⟩ <;>
      cases h.symm.trans hbound
  · next g hlatest =>
    obtain ⟨hg, hi⟩ := latest_mem hlatest
    rw [h]
    exact ⟨⟨fun _ => ⟨g, hg, hi⟩, fun _ => rfl⟩, fun _ => ⟨g, hg, hi, rfl, rfl⟩⟩

theorem Follows.announce (h : Follows interface cap gs slot) (g : GlobalInfo) :
    Follows interface cap (gs ++ [g]) (slot.announce interface cap g) := by
  unfold Follows Slot.announce
  rw [latest_append]
  by_cases hi : g.interface = interface
  · rw [if_pos hi, if_pos hi]
  · rw [if_neg hi, if_neg hi]
    exact h

/-- No other global with the interface stays when the last one goes. -/
def Removable (interface : Text) (gs : List GlobalInfo) (name : UInt32) : Prop :=
  ∀ g, latest interface gs = some g → g.name = name →
    ∀ g' ∈ gs, g'.interface = interface → g'.name = name

theorem Follows.remove (h : Follows interface cap gs slot) (hname : Removable interface gs name) :
    Follows interface cap (gs.filter fun g => g.name ≠ name) (slot.remove name) := by
  unfold Follows at h
  split at h
  · next hlatest =>
    have hnone : latest interface (gs.filter fun g => g.name ≠ name) = none :=
      latest_filter_none.mpr fun g hg hi => absurd hi (latest_none hlatest g hg)
    rw [Follows, hnone, Slot.remove, if_neg (by simp [h])]
    exact h
  · next g hlatest =>
    subst h
    by_cases hg : g.name = name
    · have hnone : latest interface (gs.filter fun g => g.name ≠ name) = none :=
        latest_filter_none.mpr (hname g hlatest hg)
      rw [Follows, hnone, Slot.remove, if_pos ⟨hg.symm, rfl⟩]
    · rw [Follows, latest_filter hlatest hg, Slot.remove, if_neg fun h => hg h.1.symm]

/-- A place that is emptied while it mirrors the globals had the only one of them. -/
theorem Follows.removable (h : Follows interface cap gs slot)
    (hafter : Mirrors interface cap (gs.filter fun g => g.name ≠ name) (slot.remove name)) :
    Removable interface gs name := by
  intro g hlatest hg g' hg' hi
  rw [Follows, hlatest] at h
  subst h
  by_contra hne
  rw [Slot.remove, if_pos ⟨hg.symm, rfl⟩] at hafter
  have hbound := hafter.bound.mpr ⟨g', List.mem_filter.mpr ⟨hg', by simpa using hne⟩, hi⟩
  cases hbound

end Slot

/-! ## The state -/

namespace State

def zwlrSlot (s : State) : Slot := ⟨s.zwlrManager, s.zwlrManagerGlobalName, s.zwlrManagerVersion⟩

def wlSlot (s : State) : Slot := ⟨s.wlManager, s.wlManagerGlobalName, s.wlManagerVersion⟩

def seatGlobals (s : State) : List GlobalInfo := s.globals.filter fun g => g.interface = kIfWlSeat

/-- The seats are those of the registry and the proxies of the managers those of globals that there
are; the seat that is picked for an operation is one that there is. -/
structure Mirrors (s : State) : Prop where
  seats : s.seats.map SeatInfo.name = s.seatGlobals.map GlobalInfo.name
  zwlr : s.zwlrSlot.Mirrors kIfZwlrMgr 2 s.globals
  wl : s.wlSlot.Mirrors kIfWlMgr 3 s.globals
  picked : ∀ selector seat, (pickSeat selector s).1 = .ok (some seat) →
    ∃ g ∈ s.globals, g.interface = kIfWlSeat ∧ g.name = seat.name

def onRegistry : RegistryEvent → Prog Halt State Unit
  | .global g => onGlobal g.name g.interface g.version
  | .globalRemove name => onGlobalRemove name

def registered (es : List RegistryEvent) (s : State) : State :=
  es.foldl (fun s e => (onRegistry e s).2) s

/-! ## What an event does -/

theorem onGlobal_effect (g : GlobalInfo) (s : State) :
    let s' := (onRegistry (.global g) s).2
    s'.globals = s.globals ++ [g] ∧
      s'.seats.map SeatInfo.name =
        s.seats.map SeatInfo.name ++ (if g.interface = kIfWlSeat then [g.name] else []) ∧
      s'.zwlrSlot = s.zwlrSlot.announce kIfZwlrMgr 2 g ∧
      s'.wlSlot = s.wlSlot.announce kIfWlMgr 3 g := by
  obtain ⟨hzwlr, hwl, hmanagers⟩ : kIfWlSeat ≠ kIfZwlrMgr ∧ kIfWlSeat ≠ kIfWlMgr ∧
      kIfZwlrMgr ≠ kIfWlMgr := by decide
  simp only [onRegistry, onGlobal, Slot.announce, bind_ok (update_apply _ s)]
  by_cases hseat : g.interface = kIfWlSeat
  · rw [if_pos hseat, if_pos hseat, if_neg (hseat ▸ hzwlr), if_neg (hseat ▸ hwl)]
    exact ⟨rfl, List.map_append, rfl, rfl⟩
  rw [if_neg hseat, if_neg hseat]
  by_cases hzwlr : g.interface = kIfZwlrMgr
  · rw [if_pos hzwlr, if_pos hzwlr, if_neg (hzwlr ▸ hmanagers)]
    exact ⟨rfl, (List.append_nil _).symm, rfl, rfl⟩
  rw [if_neg hzwlr, if_neg hzwlr]
  by_cases hwl : g.interface = kIfWlMgr
  · rw [if_pos hwl, if_pos hwl]
    exact ⟨rfl, (List.append_nil _).symm, rfl, rfl⟩
  · rw [if_neg hwl, if_neg hwl]
    exact ⟨rfl, (List.append_nil _).symm, rfl, rfl⟩

theorem onGlobalRemove_effect (name : UInt32) (s : State) :
    let s' := (onRegistry (.globalRemove name) s).2
    s'.globals = s.globals.filter (fun g => g.name ≠ name) ∧ s'.seats = s.seats ∧
      s'.zwlrSlot = s.zwlrSlot.remove name ∧ s'.wlSlot = s.wlSlot.remove name := by
  have hzwlr : ∀ s : State, let s' := (removeZwlr name s).2
      (removeZwlr name s).1 = .ok () ∧ s'.globals = s.globals ∧ s'.seats = s.seats ∧
        s'.zwlrSlot = s.zwlrSlot.remove name ∧ s'.wlSlot = s.wlSlot := by
    intro s
    unfold removeZwlr
    rw [bind_ok (read_apply id s)]
    by_cases h : name = s.zwlrManagerGlobalName ∧ s.zwlrManager
    · have hslot : s.zwlrSlot.remove name = { s.zwlrSlot with bound := false } := if_pos h
      rw [id_eq, if_pos h, hslot]
      exact ⟨rfl, rfl, rfl, rfl, rfl⟩
    · have hslot : s.zwlrSlot.remove name = s.zwlrSlot := if_neg h
      rw [id_eq, if_neg h, hslot]
      exact ⟨rfl, rfl, rfl, rfl, rfl⟩
  have hwl : ∀ s : State, let s' := (removeWl name s).2
      s'.globals = s.globals ∧ s'.seats = s.seats ∧ s'.zwlrSlot = s.zwlrSlot ∧
        s'.wlSlot = s.wlSlot.remove name := by
    intro s
    unfold removeWl
    rw [bind_ok (read_apply id s)]
    by_cases h : name = s.wlManagerGlobalName ∧ s.wlManager
    · have hslot : s.wlSlot.remove name = { s.wlSlot with bound := false } := if_pos h
      rw [id_eq, if_pos h, hslot]
      exact ⟨rfl, rfl, rfl, rfl⟩
    · have hslot : s.wlSlot.remove name = s.wlSlot := if_neg h
      rw [id_eq, if_neg h, hslot]
      exact ⟨rfl, rfl, rfl, rfl⟩
  let s₀ : State := { s with globals := s.globals.filter fun g => g.name ≠ name }
  obtain ⟨hret, hglobals, hseats, hslot, hkept⟩ := hzwlr s₀
  obtain ⟨hglobals', hseats', hkept', hslot'⟩ := hwl (removeZwlr name s₀).2
  have hrun : onRegistry (.globalRemove name) s = removeWl name (removeZwlr name s₀).2 :=
    bind_ok (Prod.ext hret rfl)
  rw [hrun]
  exact ⟨hglobals'.trans hglobals, hseats'.trans hseats, hkept'.trans hslot,
    hslot'.trans (congrArg _ hkept)⟩

theorem pickSeat_mem {selector : Text} {s : State} {seat : SeatInfo}
    (h : (pickSeat selector s).1 = .ok (some seat)) : seat ∈ s.seats := by
  have hnamed : seatByName selector s.seats = some seat → seat ∈ s.seats := List.mem_of_find?_eq_some
  unfold pickSeat at h
  rw [bind_ok (read_apply State.seats s)] at h
  split_ifs at h with hseats hselector hdigits
  · cases h
  · exact List.mem_of_head? (Except.ok.inj h)
  · rcases hidx : stoul selector with _ | idx <;> rw [hidx] at h
    · cases h
    · rcases Option.or_eq_some_iff.mp (Except.ok.inj h) with h | ⟨-, h⟩
      · exact List.mem_of_getElem? h
      · exact hnamed h
  · exact hnamed (Except.ok.inj h)

/-! ## Runs -/

/-- The state follows the registry, on which there are `gs`. -/
structure Follows (gs : List GlobalInfo) (s : State) : Prop where
  globals : s.globals = gs
  seats : s.seats.map SeatInfo.name = s.seatGlobals.map GlobalInfo.name
  zwlr : s.zwlrSlot.Follows kIfZwlrMgr 2 gs
  wl : s.wlSlot.Follows kIfWlMgr 3 gs

/-- No seat goes, and no manager goes while an earlier one stays. -/
structure Removable (gs : List GlobalInfo) (name : UInt32) : Prop where
  seat : ∀ g ∈ gs, g.interface = kIfWlSeat → g.name ≠ name
  zwlr : Slot.Removable kIfZwlrMgr gs name
  wl : Slot.Removable kIfWlMgr gs name

def Followable (gs : List GlobalInfo) : RegistryEvent → Prop
  | .global _ => True
  | .globalRemove name => Removable gs name

variable {gs : List GlobalInfo} {s : State} {e : RegistryEvent}

theorem Follows.mirrors (h : Follows gs s) : s.Mirrors where
  seats := h.seats
  zwlr := h.globals ▸ h.zwlr.mirrors
  wl := h.globals ▸ h.wl.mirrors
  picked selector seat hpick := by
    have hname := List.mem_map_of_mem (f := SeatInfo.name) (pickSeat_mem hpick)
    rw [h.seats] at hname
    obtain ⟨g, hg, hsame⟩ := List.mem_map.mp hname
    obtain ⟨hmem, hi⟩ := List.mem_filter.mp hg
    exact ⟨g, hmem, of_decide_eq_true hi, hsame⟩

theorem Follows.step (h : Follows gs s) (he : Followable gs e) :
    Follows (e.next gs) (onRegistry e s).2 := by
  cases e with
  | global g =>
      obtain ⟨hglobals, hseats, hzwlr, hwl⟩ := onGlobal_effect g s
      refine ⟨hglobals.trans (congrArg (· ++ [g]) h.globals), ?_, ?_, ?_⟩
      · rw [hseats, h.seats, seatGlobals, seatGlobals, hglobals]
        by_cases hi : g.interface = kIfWlSeat <;> simp [hi]
      · rw [hzwlr]
        exact h.zwlr.announce g
      · rw [hwl]
        exact h.wl.announce g
  | globalRemove name =>
      obtain ⟨hglobals, hseats, hzwlr, hwl⟩ := onGlobalRemove_effect name s
      refine ⟨hglobals.trans (congrArg (List.filter _) h.globals), ?_, ?_, ?_⟩
      · have hkept : (s.globals.filter fun g => g.name ≠ name).filter
            (fun g => g.interface = kIfWlSeat) = s.seatGlobals := by
          rw [List.filter_filter, seatGlobals]
          refine List.filter_congr fun g hg => ?_
          have hseat := he.seat g (h.globals ▸ hg)
          by_cases hi : g.interface = kIfWlSeat
          · simp [hi, hseat hi]
          · simp [hi]
        rw [hseats, h.seats, seatGlobals, seatGlobals, hglobals, hkept]
        rfl
      · rw [hzwlr]
        exact h.zwlr.remove he.zwlr
      · rw [hwl]
        exact h.wl.remove he.wl

/-- A state that follows the registry no longer mirrors it after any other event. -/
theorem Follows.followable (h : Follows gs s) (hafter : (onRegistry e s).2.Mirrors) :
    Followable gs e := by
  cases e with
  | global g => trivial
  | globalRemove name =>
      obtain ⟨hglobals, hseats, hzwlr, hwl⟩ := onGlobalRemove_effect name s
      have hglobals' := hglobals.trans (congrArg (List.filter _) h.globals)
      refine ⟨?_, ?_, ?_⟩
      · intro g hg hi
        have hcount := congrArg List.length hafter.seats
        have hleft : (onRegistry (.globalRemove name) s).2.seatGlobals =
            s.seatGlobals.filter fun g => g.name ≠ name := by
          rw [seatGlobals, hglobals, List.filter_filter, seatGlobals, List.filter_filter]
          simp only [Bool.and_comm]
        rw [hseats, h.seats, List.length_map, List.length_map, hleft] at hcount
        have hkept := List.length_filter_eq_length_iff.mp hcount.symm g
          (List.mem_filter.mpr ⟨h.globals ▸ hg, decide_eq_true hi⟩)
        exact of_decide_eq_true hkept
      · have hslot := hafter.zwlr
        rw [hzwlr, hglobals'] at hslot
        exact h.zwlr.removable hslot
      · have hslot := hafter.wl
        rw [hwl, hglobals'] at hslot
        exact h.wl.removable hslot

open RegistryEvent (alive)

/-- If each event that comes while the state follows the registry is one that it can follow, then it
follows the registry all along. -/
theorem registered_follows (p : Process) {es : List RegistryEvent}
    (h : ∀ log e, log ++ [e] <+: es → Follows (alive log) (registered log (new p)) →
      Followable (alive log) e) {log : List RegistryEvent} (hlog : log <+: es) :
    Follows (alive log) (registered log (new p)) := by
  induction log using List.reverseRecOn with
  | nil => exact ⟨rfl, rfl, rfl, rfl⟩
  | append_singleton log e ih =>
      have hbefore := ih ((List.prefix_append log [e]).trans hlog)
      have hstep := hbefore.step (h log e hlog hbefore)
      simpa [alive, registered] using hstep

/-- The state mirrors the registry after each event exactly when every event was one that it can
follow. -/
theorem mirrors_iff (p : Process) (es : List RegistryEvent) :
    (∀ log, log <+: es → (registered log (new p)).Mirrors) ↔
      ∀ log e, log ++ [e] <+: es → Followable (alive log) e := by
  constructor
  · intro hmirrors
    have hfollowable : ∀ log e, log ++ [e] <+: es → Follows (alive log) (registered log (new p)) →
        Followable (alive log) e := by
      intro log e hlog h
      have hafter := hmirrors _ hlog
      rw [registered, List.foldl_append] at hafter
      exact h.followable hafter
    intro log e hlog
    exact hfollowable log e hlog
      (registered_follows p hfollowable ((List.prefix_append log [e]).trans hlog))
  · intro hfollowable log hlog
    exact (registered_follows p (fun log e hlog _ => hfollowable log e hlog) hlog).mirrors

/-- A seat is announced and taken back. -/
def unplugged : List RegistryEvent := [.global ⟨1, kIfWlSeat, 7⟩, .globalRemove 1]

theorem unplugged_not_mirrored :
    (∀ log, log <+: unplugged → ((alive log).map GlobalInfo.name).Nodup) ∧
      (pickSeat [] (registered unplugged (new (.fresh [])))).1 = .ok (some ⟨0, 1, 7, []⟩) ∧
      ¬ (registered unplugged (new (.fresh []))).Mirrors := by
  refine ⟨fun log hlog => ?_, rfl, fun h => ?_⟩
  · have hdistinct : ∀ log ∈ unplugged.inits, ((alive log).map GlobalInfo.name).Nodup := by decide
    exact hdistinct log ((List.mem_inits log unplugged).mpr hlog)
  · obtain ⟨g, hg, -⟩ := h.picked [] ⟨0, 1, 7, []⟩ rfl
    cases hg

end State

end WlClip
