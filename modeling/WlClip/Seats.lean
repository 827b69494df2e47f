import WlClip.Registry
import WlClip.HandcraftedScript
import Mathlib.Data.Nat.Digits.Defs

/-!
# Resolving a seat

The rule by which `State::pick_seat` chooses a seat, and where it throws. The handcrafted backend
binds a seat before it knows a name: when the two come to the same seat.
-/

open ScriptedProgram ScriptedProgram.Prog

namespace WlClip

/-! ## The rule -/

/-- The number that a string of digits stands for. -/
def decimalValue (s : Text) : ℕ := Nat.ofDigits 10 (s.reverse.map fun c => c.toNat - 48)

theorem decimalValue_cons (c : UInt8) (s : Text) :
    decimalValue (c :: s) = 10 ^ s.length * (c.toNat - 48) + decimalValue s := by
  rw [decimalValue, List.reverse_cons, List.map_append, Nat.ofDigits_append, List.length_map,
    List.length_reverse, List.map_singleton, Nat.ofDigits_singleton, Nat.add_comm]
  rfl

theorem foldl_decimal (s : Text) (n : ℕ) :
    s.foldl (fun n c => 10 * n + (c.toNat - 48)) n = 10 ^ s.length * n + decimalValue s := by
  induction s generalizing n with
  | nil => simp [decimalValue]
  | cons c s ih =>
      rw [List.foldl_cons, ih, decimalValue_cons, List.length_cons, pow_succ]
      ring

theorem stoul_eq (s : Text) :
    stoul s = if decimalValue s < 2 ^ 64 then some (decimalValue s) else none := by
  have hvalue := foldl_decimal s 0
  rw [Nat.mul_zero, Nat.zero_add] at hvalue
  rw [stoul, hvalue]

/-- The seat that a selector stands for: the first if it is empty, else the one at the index that
it gives, else the first with the name. -/
def pickRule (selector : Text) (seats : List SeatInfo) : Option SeatInfo :=
  if seats = [] then none
  else if selector = [] then seats.head?
  else if allDigits selector ∧ decimalValue selector < seats.length then
    seats[decimalValue selector]?
  else seats.find? fun s => s.identifier = selector

theorem pickRule_first (seats : List SeatInfo) : pickRule [] seats = seats.head? := by
  rcases seats with _ | ⟨seat, seats⟩ <;> rfl

theorem pickRule_index {selector : Text} {seats : List SeatInfo} (hne : selector ≠ [])
    (hdigits : allDigits selector = true) (h : decimalValue selector < seats.length) :
    pickRule selector seats = seats[decimalValue selector]? := by
  have hseats : seats ≠ [] := List.ne_nil_of_length_pos (Nat.zero_lt_of_lt h)
  rw [pickRule, if_neg hseats, if_neg hne, if_pos ⟨hdigits, h⟩]

theorem pickRule_named {selector : Text} {seats : List SeatInfo} (hne : selector ≠ [])
    (h : ¬ (allDigits selector = true ∧ decimalValue selector < seats.length)) :
    pickRule selector seats = seats.find? fun s => s.identifier = selector := by
  rcases seats with _ | ⟨seat, seats⟩
  · rfl
  · rw [pickRule, if_neg (List.cons_ne_nil _ _), if_neg hne, if_neg h]

namespace State

variable {selector : Text} {s : State}

theorem pickSeat_overflow (hseats : s.seats ≠ []) (hdigits : allDigits selector = true)
    (hvalue : ¬ decimalValue selector < 2 ^ 64) :
    pickSeat selector s = (.error .uncaught, s) := by
  have hne : selector ≠ [] := by
    rintro rfl
    exact hvalue (by decide)
  unfold pickSeat
  rw [bind_ok (read_apply State.seats s), if_neg hseats, if_neg hne, if_pos hdigits, stoul_eq,
    if_neg hvalue]
  rfl

/-- A seat is picked by the rule exactly if the selector is no number that is too large for the
conversion, or there is none to pick. -/
theorem pickSeat_rule_iff (selector : Text) (s : State) :
    pickSeat selector s = (.ok (pickRule selector s.seats), s) ↔
      s.seats = [] ∨ allDigits selector = false ∨ decimalValue selector < 2 ^ 64 := by
  constructor
  · intro h
    by_contra hneither
    push Not at hneither
    obtain ⟨hseats, hdigits, hvalue⟩ := hneither
    rw [pickSeat_overflow hseats (Bool.not_eq_false _ ▸ hdigits) (Nat.not_lt.mpr hvalue)] at h
    cases h
  · intro h
    unfold pickSeat pickRule
    rw [bind_ok (read_apply State.seats s)]
    by_cases hseats : s.seats = []
    · rw [if_pos hseats, if_pos hseats]
      rfl
    rw [if_neg hseats, if_neg hseats]
    by_cases hselector : selector = []
    · rw [if_pos hselector, if_pos hselector]
      rfl
    rw [if_neg hselector, if_neg hselector]
    by_cases hdigits : allDigits selector = true
    · have hvalue : decimalValue selector < 2 ^ 64 :=
        (h.resolve_left hseats).resolve_left (by simp [hdigits])
      rw [if_pos hdigits, stoul_eq, if_pos hvalue]
      by_cases hindex : decimalValue selector < s.seats.length
      · rw [if_pos ⟨hdigits, hindex⟩]
        simp [List.getElem?_eq_getElem hindex]
      · rw [if_neg fun h => hindex h.2]
        simp [List.getElem?_eq_none (Nat.not_lt.mp hindex), seatByName]
    · rw [if_neg hdigits, if_neg fun h => hdigits h.1]
      rfl

def overflowing : Text := text "18446744073709551616"

/-- The exception of the conversion leaves `pick_seat`, although the seat could not be picked. -/
theorem pickSeat_throws : ∃ s : State,
    s.seats = [⟨0, 1, 7, text "seat0"⟩] ∧ pickRule overflowing s.seats = none ∧
    (pickSeat overflowing s).1 = .error .uncaught := by
  refine ⟨{ State.new (.fresh []) with seats := [⟨0, 1, 7, text "seat0"⟩] }, rfl, ?_, ?_⟩
  · decide +kernel
  · decide +kernel

end State

/-! ## What a compositor says of its globals -/

namespace Handcrafted

def globalsIn (interface : Text) (ds : List Delivery) : List (UInt32 × UInt32) :=
  ds.filterMap fun d =>
    let r := Reader.new d.1 d.2.1 d.2.2
    if d.1 = 2 ∧ d.2.1 = WlRegistry.kEvGlobal ∧ r.u32.2.str.1 = interface then
      some (r.u32.1, r.u32.2.str.2.u32.1)
    else none

def namesIn (ds : List Delivery) : List Text :=
  ds.filterMap fun d =>
    if d.1 = 4 ∧ d.2.1 = WlSeat.kEvName then some (Reader.new d.1 d.2.1 d.2.2).str.1 else none

def deletedIn (ds : List Delivery) : List UInt32 :=
  ds.filterMap fun d =>
    if d.1 = kDisplayId ∧ d.2.1 = WlDisplay.kEvDeleteId then
      some (Reader.new d.1 d.2.1 d.2.2).u32.1
    else none

theorem globalsIn_append (interface : Text) (ds ds' : List Delivery) :
    globalsIn interface (ds ++ ds') = globalsIn interface ds ++ globalsIn interface ds' :=
  List.filterMap_append

theorem namesIn_append (ds ds' : List Delivery) : namesIn (ds ++ ds') = namesIn ds ++ namesIn ds' :=
  List.filterMap_append

theorem deletedIn_append (ds ds' : List Delivery) :
    deletedIn (ds ++ ds') = deletedIn ds ++ deletedIn ds' := List.filterMap_append

/-- Where the objects are that a bootstrap makes. -/
structure Placed {σ : Type} (cl : Client σ) : Prop where
  special : ∀ i, ¬ (cl.objects i).Special
  display : ∀ i, cl.objects i = .display → i = kDisplayId
  registry : ∀ i, cl.objects i = .registry ↔ i = 2
  seat : ∀ i, cl.objects i = .seat → i = 4

variable {σ : Type} [HasSession σ]

/-- What the client has become by some deliveries, as long as they delete neither the registry nor
the seat. -/
structure Noted (cl₁ : Client σ) (ds : List Delivery) (cl : Client σ) : Prop where
  written : cl.written = cl₁.written
  dispatched : cl.dispatched = cl₁.dispatched ++ ds
  nextId : cl.nextId = cl₁.nextId
  ids : (session cl.st).ids = (session cl₁.st).ids
  objects : ∀ i, cl.objects i = cl₁.objects i ∨ cl.objects i = .unknown ∧ i ∈ deletedIn ds
  seats : 2 ∉ deletedIn ds → (session cl.st).g.seats = (session cl₁.st).g.seats ++
    (globalsIn kIfWlSeat ds).map fun a => ⟨a.1, a.2⟩
  managers : 2 ∉ deletedIn ds → (session cl.st).g.managers = (session cl₁.st).g.managers ++
    (globalsIn kIfZwlrMgr ds).map fun a => ⟨a.1, a.2⟩
  seatName : cl₁.objects 4 = .seat → 4 ∉ deletedIn ds →
    (session cl.st).seatName = (namesIn ds).getLast?.getD (session cl₁.st).seatName
  unnamed : (∀ i, cl₁.objects i ≠ .seat) →
    (session cl.st).seatName = (session cl₁.st).seatName

variable {cl₁ cl cl' : Client σ} {ds : List Delivery}

theorem noted_refl (cl : Client σ) : Noted cl [] cl :=
  ⟨rfl, (List.append_nil _).symm, rfl, rfl, fun _ => .inl rfl, fun _ => (List.append_nil _).symm,
    fun _ => (List.append_nil _).symm, fun _ _ => rfl, fun _ => rfl⟩

theorem Noted.placed_objects (h : Noted cl₁ ds cl) {i : UInt32} {k : ObjKind}
    (hk : cl.objects i = k) (hunknown : k ≠ .unknown) : cl₁.objects i = k := by
  rcases h.objects i with hsame | ⟨hgone, -⟩
  · exact hsame ▸ hk
  · exact absurd (hk.symm.trans hgone) hunknown

/-- What the operations on the connection do is not noted. -/
theorem Noted.quiet (h : Noted cl₁ ds cl) (hq : Client.Quiet cl cl') : Noted cl₁ ds cl' := by
  have hsame := Unspoken.of_logs hq.1.logs hq.2
  have hobjects : cl'.objects = cl.objects := congrArg (fun l : Client.Local σ => l.1) hq.2
  have hnext : cl'.nextId = cl.nextId := congrArg (fun l : Client.Local σ => l.2.1) hq.2
  have hst : cl'.st = cl.st := congrArg (fun l : Client.Local σ => l.2.2) hq.2
  refine ⟨hsame.written.trans h.written, hsame.dispatched.trans h.dispatched,
    hnext.trans h.nextId, ?_, ?_, ?_, ?_, ?_, ?_⟩
  · rw [hst]
    exact h.ids
  · rw [hobjects]
    exact h.objects
  · rw [hst]
    exact h.seats
  · rw [hst]
    exact h.managers
  · rw [hst]
    exact h.seatName
  · rw [hst]
    exact h.unnamed

theorem session_onSession (f : Session → Session) (cl : Client σ) :
    session (onSession f cl).st = f (session cl.st) := session_withSession _ _

theorem addGlobal_seats (name : UInt32) (interface : Text) (version : UInt32) (g : Globals) :
    (addGlobal name interface version g).seats =
        g.seats ++ (if interface = kIfWlSeat then [⟨name, version⟩] else []) ∧
      (addGlobal name interface version g).managers =
        g.managers ++ if interface = kIfZwlrMgr then [⟨name, version⟩] else [] := by
  have hdiffer : kIfWlSeat ≠ kIfZwlrMgr := by decide
  unfold addGlobal
  by_cases hseat : interface = kIfWlSeat
  · simp [hseat, hdiffer]
  · by_cases hmanager : interface = kIfZwlrMgr <;> simp [hseat, hmanager, hdiffer.symm]

section

variable {obj : UInt32} {op : UInt16} {r : Reader}

theorem common_registry (h : cl.objects obj = .registry) :
    common obj op r cl = if op = WlRegistry.kEvGlobal then
      onSession (fun s => { s with
        g := addGlobal r.u32.1 r.u32.2.str.1 r.u32.2.str.2.u32.1 s.g }) cl else cl := by
  simp only [common, h]

theorem common_seat (h : cl.objects obj = .seat) :
    common obj op r cl =
      if op = WlSeat.kEvName then onSession (fun s => { s with seatName := r.str.1 }) cl else cl := by
  simp only [common, h]

variable (op r) in
theorem common_globals (h : cl.objects obj ≠ .registry) :
    (session (common obj op r cl).st).g.seats = (session cl.st).g.seats ∧
      (session (common obj op r cl).st).g.managers = (session cl.st).g.managers := by
  unfold common
  split
  · split_ifs <;> exact ⟨rfl, rfl⟩
  · next hobj => exact absurd hobj h
  · split_ifs <;> simp [onSession]
  · split_ifs <;> simp [onSession]
  · exact ⟨rfl, rfl⟩

theorem common_seatName (h : cl.objects obj ≠ .seat) :
    (session (common obj op r cl).st).seatName = (session cl.st).seatName := by
  unfold common
  split
  · split_ifs <;> rfl
  · split_ifs <;> simp [onSession]
  · split_ifs <;> simp [onSession]
  · next hobj => exact absurd hobj h
  · rfl

variable (cl obj op r) in
/-- All that is lost is an object that the display deletes. -/
theorem common_objects (i : UInt32) : (common obj op r cl).objects i = cl.objects i ∨
    (common obj op r cl).objects i = .unknown ∧ cl.objects obj = .display ∧
      op = WlDisplay.kEvDeleteId ∧ i = r.u32.1 := by
  unfold common
  split
  · next hobj =>
    split_ifs with hop
    · by_cases hi : i = r.u32.1
      · exact .inr ⟨if_pos hi, hobj, hop, hi⟩
      · exact .inl (if_neg hi)
    · exact .inl rfl
  all_goals first
    | exact .inl rfl
    | split_ifs <;> exact .inl rfl

variable (cl obj op r) in
theorem common_ids : (session (common obj op r cl).st).ids = (session cl.st).ids ∧
    (common obj op r cl).nextId = cl.nextId := by
  unfold common
  split
  · split_ifs <;> exact ⟨rfl, rfl⟩
  · split_ifs
    · refine ⟨?_, rfl⟩
      simp only [onSession, session_withSession, Session.ids, addGlobal]
      split_ifs <;> rfl
    · exact ⟨rfl, rfl⟩
  · split_ifs <;> simp [onSession, Session.ids]
  · split_ifs <;> simp [onSession, Session.ids]
  · exact ⟨rfl, rfl⟩

end

section

variable {d : Delivery} {i : UInt32}

theorem not_deleted (hi : i ∉ deletedIn (ds ++ [d])) : i ∉ deletedIn ds := by
  intro hmem
  rw [deletedIn_append] at hi
  exact hi (List.mem_append_left _ hmem)

theorem Noted.kept (h : Noted cl₁ ds cl) {k : ObjKind} (hk : cl₁.objects i = k)
    (hi : i ∉ deletedIn (ds ++ [d])) : cl.objects i = k := by
  rcases h.objects i with hsame | ⟨-, hgone⟩
  · exact hsame.trans hk
  · exact absurd hgone (not_deleted hi)

end

section

variable (hplaced : Placed cl₁) (h : Noted cl₁ ds cl) (m : Message)

include hplaced h

theorem Noted.deliver_globals (hgone : 2 ∉ deletedIn (ds ++ [m.delivery])) :
    (session (common m.objectId m.opcode (.new m.objectId m.opcode m.payload)
      (Client.logged m cl)).st).g.seats =
        (session cl.st).g.seats ++ (globalsIn kIfWlSeat [m.delivery]).map (fun a => ⟨a.1, a.2⟩) ∧
    (session (common m.objectId m.opcode (.new m.objectId m.opcode m.payload)
      (Client.logged m cl)).st).g.managers =
        (session cl.st).g.managers ++
          (globalsIn kIfZwlrMgr [m.delivery]).map fun a => ⟨a.1, a.2⟩ := by
  let r := Reader.new m.objectId m.opcode m.payload
  by_cases hobj : m.objectId = 2
  · have hreg : (Client.logged m cl).objects m.objectId = .registry :=
      h.kept ((hplaced.registry _).mpr hobj) (hobj ▸ hgone)
    have hread : ∀ interface, globalsIn interface [m.delivery] =
        if m.opcode = WlRegistry.kEvGlobal ∧ r.u32.2.str.1 = interface then
          [(r.u32.1, r.u32.2.str.2.u32.1)] else [] := by
      intro interface
      by_cases hop : m.opcode = WlRegistry.kEvGlobal ∧ r.u32.2.str.1 = interface
      · rw [if_pos hop]
        exact List.filterMap_cons_some (if_pos ⟨hobj, hop.1, hop.2⟩)
      · rw [if_neg hop]
        exact List.filterMap_cons_none (if_neg fun h => hop h.2)
    rw [common_registry hreg, hread, hread]
    by_cases hop : m.opcode = WlRegistry.kEvGlobal
    · obtain ⟨hseats, hmanagers⟩ := addGlobal_seats r.u32.1 r.u32.2.str.1
        r.u32.2.str.2.u32.1 (session cl.st).g
      have hsession : session (Client.logged m cl).st = session cl.st := rfl
      rw [if_pos hop, session_onSession, hsession, hseats, hmanagers]
      constructor <;> split_ifs with h₁ h₂ h₂ <;> simp_all
    · simp [hop, Client.logged]
  · have hreg : (Client.logged m cl).objects m.objectId ≠ .registry := fun hreg =>
      hobj ((hplaced.registry _).mp (h.placed_objects hreg (by simp)))
    have hnone : ∀ interface, globalsIn interface [m.delivery] = [] := by
      intro interface
      simp [globalsIn, Message.delivery, hobj]
    obtain ⟨hseats, hmanagers⟩ := common_globals m.opcode r hreg
    rw [hnone, hnone, hseats, hmanagers]
    exact ⟨(List.append_nil _).symm, (List.append_nil _).symm⟩

theorem Noted.deliver_objects (i : UInt32) :
    (common m.objectId m.opcode (.new m.objectId m.opcode m.payload)
      (Client.logged m cl)).objects i = cl₁.objects i ∨
    (common m.objectId m.opcode (.new m.objectId m.opcode m.payload)
      (Client.logged m cl)).objects i = .unknown ∧ i ∈ deletedIn (ds ++ [m.delivery]) := by
  have hmem : i ∈ deletedIn ds → i ∈ deletedIn (ds ++ [m.delivery]) := fun hi => by
    rw [deletedIn_append]
    exact List.mem_append_left _ hi
  rcases common_objects (Client.logged m cl) m.objectId m.opcode
    (.new m.objectId m.opcode m.payload) i with hsame | ⟨hgone, hdisplay, hop, hi⟩
  · exact (h.objects i).imp hsame.trans fun hlost => ⟨hsame.trans hlost.1, hmem hlost.2⟩
  · refine .inr ⟨hgone, ?_⟩
    have hobj := hplaced.display _ (h.placed_objects hdisplay (by simp))
    have hread : deletedIn [m.delivery] = [(Reader.new m.objectId m.opcode m.payload).u32.1] :=
      List.filterMap_cons_some (if_pos ⟨hobj, hop⟩)
    rw [deletedIn_append, hread]
    exact List.mem_append_right _ (List.mem_singleton.mpr hi)

theorem Noted.deliver_seatName (hseat : cl₁.objects 4 = .seat)
    (hgone : 4 ∉ deletedIn (ds ++ [m.delivery])) :
    (session (common m.objectId m.opcode (.new m.objectId m.opcode m.payload)
      (Client.logged m cl)).st).seatName =
        (namesIn (ds ++ [m.delivery])).getLast?.getD (session cl₁.st).seatName := by
  let r := Reader.new m.objectId m.opcode m.payload
  have hbefore := h.seatName hseat (not_deleted hgone)
  rw [namesIn_append]
  by_cases hobj : m.objectId = 4
  · have hkind : (Client.logged m cl).objects m.objectId = .seat :=
      h.kept (hobj ▸ hseat) (hobj ▸ hgone)
    rw [common_seat hkind]
    by_cases hop : m.opcode = WlSeat.kEvName
    · have hread : namesIn [m.delivery] = [r.str.1] :=
        List.filterMap_cons_some (if_pos ⟨hobj, hop⟩)
      rw [if_pos hop, session_onSession, hread, List.getLast?_append]
      rfl
    · have hread : namesIn [m.delivery] = [] :=
        List.filterMap_cons_none (if_neg fun h => hop h.2)
      rw [if_neg hop, hread, List.append_nil]
      exact hbefore
  · have hkind : (Client.logged m cl).objects m.objectId ≠ .seat := fun hkind =>
      hobj (hplaced.seat _ (h.placed_objects hkind (by simp)))
    have hread : namesIn [m.delivery] = [] :=
      List.filterMap_cons_none (if_neg fun h => hobj h.1)
    rw [common_seatName hkind, hread, List.append_nil]
    exact hbefore

theorem Noted.deliver : Noted cl₁ (ds ++ [m.delivery]) (common m.objectId m.opcode
    (.new m.objectId m.opcode m.payload) (Client.logged m cl)) := by
  let r := Reader.new m.objectId m.opcode m.payload
  have hconn := common_toConnection m.objectId m.opcode r (Client.logged m cl)
  have hids := common_ids (Client.logged m cl) m.objectId m.opcode r
  refine ⟨?_, ?_, hids.2.trans h.nextId, hids.1.trans h.ids, Noted.deliver_objects hplaced h m,
    fun hgone => ?_, fun hgone => ?_, Noted.deliver_seatName hplaced h m, fun hnone => ?_⟩
  · rw [hconn]
    refine Eq.trans ?_ h.written
    simp [Client.logged, Process.written, Process.observe, Action.written]
  · rw [hconn, Client.dispatched_logged, h.dispatched, List.append_assoc]
  · rw [(Noted.deliver_globals hplaced h m hgone).1, h.seats (not_deleted hgone),
      globalsIn_append, List.map_append, List.append_assoc]
  · rw [(Noted.deliver_globals hplaced h m hgone).2, h.managers (not_deleted hgone),
      globalsIn_append, List.map_append, List.append_assoc]
  · have hkind : (Client.logged m cl).objects m.objectId ≠ .seat := fun hkind =>
      hnone _ (h.placed_objects hkind (by simp))
    exact (common_seatName hkind).trans (h.unnamed hnone)

end

/-! ## Bootstrapping -/

/-- A dispatcher that leaves the events of both operations to `common`. -/
def Delegating (d : Dispatcher σ) : Prop :=
  ∀ obj op r (cl : Client σ), ¬ (cl.objects obj).Special →
    d.handle obj op r cl = (.ok (), common obj op r cl)

theorem copy_delegating : Delegating copyDispatcher := fun _ _ _ _ h =>
  handleCopy_other fun hsource => h (.inl hsource)

theorem paste_delegating : Delegating pasteDispatcher := fun _ _ _ _ h =>
  congrArg (Prod.mk _) (pasteStep_other h)

theorem dispatchUntil_noted {d : Dispatcher σ} (hd : Delegating d) (hplaced : Placed cl₁)
    {predicate : σ → Bool} {ok : Bool}
    (h : Client.dispatchUntil predicate d cl₁ = (.ok ok, cl)) : ∃ ds, Noted cl₁ ds cl := by
  have hdeliver : ∀ m, Keeps (fun cl => ∃ ds, Noted cl₁ ds cl) (Client.deliver d m) := by
    intro m
    refine (Client.deliver_triple (P := fun c => ∃ cl ds, c = Client.logged m cl ∧ Noted cl₁ ds cl)
      ?_).pre fun cl ⟨ds, h⟩ => ⟨cl, ds, rfl, h⟩
    rintro _ ⟨cl, ds, rfl, h⟩
    have hspecial : ¬ ((Client.logged m cl).objects m.objectId).Special := by
      rintro (hk | hk | hk)
      · exact hplaced.special _ (.inl (h.placed_objects hk nofun))
      · exact hplaced.special _ (.inr (.inl (h.placed_objects hk nofun)))
      · exact hplaced.special _ (.inr (.inr (h.placed_objects hk nofun)))
    rw [hd _ _ _ _ hspecial]
    have hnext := h.deliver hplaced m
    exact ⟨_, hnext.written, hnext.dispatched, hnext.nextId, hnext.ids, hnext.objects, hnext.seats,
      hnext.managers, hnext.seatName, hnext.unnamed⟩
  have hquiet : ∀ cl cl' : Client σ, (∃ ds, Noted cl₁ ds cl) → Client.Quiet cl cl' →
      ∃ ds, Noted cl₁ ds cl' := fun _ _ ⟨ds, h⟩ hq => ⟨ds, h.quiet hq⟩
  exact ((Client.dispatchUntil_keeps hquiet hdeliver).ok h ⟨[], noted_refl cl₁⟩).1

/-- A client with nothing but the display. -/
structure Blank (cl : Client σ) : Prop where
  nextId : cl.nextId = 2
  objects : ∀ i, cl.objects i = if i = kDisplayId then .display else .unknown
  session : session cl.st = .new

/-- The client when it has asked for the globals. -/
def opened (cl : Client σ) : Client σ :=
  ((do
    sendGetRegistry
    startSync : Prog Halt (Client σ) Unit) cl).2

/-- The client when it has bound a seat and a manager and asked for their events. -/
def bound (sg : SeatGlobal) (mg : ManagerGlobal) (cl : Client σ) : Client σ :=
  ((do
    bindSeat (session cl.st).g.registryId sg
    bindManager (session cl.st).g.registryId mg
    modifyGlobals fun g => { g with syncDone := false }
    startSync : Prog Halt (Client σ) Unit) cl).2

theorem bootstrap_opened (d : Dispatcher σ) (selector : Text) (cl : Client σ) :
    bootstrap d selector cl = (do
      if ← Client.dispatchUntil synced d then bindGlobals d selector else return false) (opened cl) :=
  rfl

theorem opened_objects {cl : Client σ} (h : Blank cl) (i : UInt32) :
    (opened cl).objects i = if i = 3 then .callback else if i = 2 then .registry
      else if i = kDisplayId then .display else .unknown := by
  change (if i = cl.nextId + 1 then ObjKind.callback else if i = cl.nextId then .registry
    else cl.objects i) = _
  rw [h.nextId, h.objects]
  rfl

abbrev modified (f : Session → Session) (st : σ) : σ := withSession (f (session st)) st

theorem session_modified (f : Session → Session) (st : σ) :
    session (modified f st) = f (session st) := session_withSession _ _

theorem opened_session {cl : Client σ} (h : Blank cl) :
    session (opened cl).st = { Session.new with g := ⟨2, false, 3, [], []⟩ } := by
  have hst : (opened cl).st = modified (fun s => { s with g.syncCbId := cl.nextId + 1 })
      (modified (fun s => { s with g.registryId := cl.nextId }) cl.st) := rfl
  rw [hst, session_modified, session_modified, h.session, h.nextId]
  rfl

theorem opened_placed {cl : Client σ} (h : Blank cl) : Placed (opened cl) := by
  refine ⟨fun i => ?_, fun i => ?_, fun i => ?_, fun i => ?_⟩ <;> rw [opened_objects h i] <;>
    split_ifs <;> simp_all [ObjKind.Special, kDisplayId]

theorem bound_objects (sg : SeatGlobal) (mg : ManagerGlobal) (cl : Client σ) (i : UInt32) :
    (bound sg mg cl).objects i = if i = cl.nextId + 1 + 1 then .callback
      else if i = cl.nextId + 1 then .manager else if i = cl.nextId then .seat
      else cl.objects i := rfl

theorem bound_session (sg : SeatGlobal) (mg : ManagerGlobal) (cl : Client σ) :
    (session (bound sg mg cl).st).seatId = cl.nextId ∧
      (session (bound sg mg cl).st).seatName = (session cl.st).seatName ∧
      (session (bound sg mg cl).st).g.registryId = (session cl.st).g.registryId := by
  have hst : (bound sg mg cl).st = modified (fun s => { s with g.syncCbId := cl.nextId + 1 + 1 })
      (modified (fun s => { s with g.syncDone := false })
        (modified (fun s => { s with
            managerId := cl.nextId + 1, managerVersion := min mg.version 2 })
          (modified (fun s => { s with seatId := cl.nextId }) cl.st))) := rfl
  simp only [hst, session_modified]
  exact ⟨trivial, trivial, trivial⟩

theorem bound_written (sg : SeatGlobal) (mg : ManagerGlobal) (cl : Client σ) :
    (Request.bind sg.name kIfWlSeat (min sg.version 7) cl.nextId).encode
      (session cl.st).g.registryId ∈ (bound sg mg cl).written := by
  obtain ⟨log, htrace⟩ : ∃ log, (bound sg mg cl).trace = cl.trace ++
      .queue ((Request.bind sg.name kIfWlSeat (min sg.version 7) cl.nextId).encode
        (session cl.st).g.registryId) :: log :=
    ⟨[.queue _, .queue _], List.append_assoc _ _ _ |>.trans (List.append_assoc _ _ _)⟩
  rw [Process.written, Process.observe, htrace, List.flatMap_append]
  exact List.mem_append_right _ (List.mem_append_left _ List.mem_cons_self)

theorem bound_placed {ds : List Delivery} (hplaced : Placed cl₁)
    (hnone : ∀ i, cl₁.objects i ≠ .seat) (h : Noted cl₁ ds cl) (hnext : cl₁.nextId = 4)
    (hregistry : 2 ∉ deletedIn ds) (sg : SeatGlobal) (mg : ManagerGlobal) :
    Placed (bound sg mg cl) ∧ (bound sg mg cl).objects 4 = .seat := by
  have hobjects : ∀ i, (bound sg mg cl).objects i = if i = 6 then .callback
      else if i = 5 then .manager else if i = 4 then .seat else cl.objects i := by
    intro i
    rw [bound_objects, h.nextId, hnext]
    rfl
  have hkept : cl.objects 2 = .registry :=
    (h.objects 2).elim (fun hsame => hsame.trans ((hplaced.registry 2).mpr rfl))
      fun hgone => absurd hgone.2 hregistry
  refine ⟨⟨fun i => ?_, fun i => ?_, fun i => ?_, fun i => ?_⟩, by rw [hobjects]; rfl⟩ <;>
    rw [hobjects i]
  · split_ifs
    · simp [ObjKind.Special]
    · simp [ObjKind.Special]
    · simp [ObjKind.Special]
    · rintro (hk | hk | hk)
      · exact hplaced.special i (.inl (h.placed_objects hk (by simp)))
      · exact hplaced.special i (.inr (.inl (h.placed_objects hk (by simp))))
      · exact hplaced.special i (.inr (.inr (h.placed_objects hk (by simp))))
  · split_ifs
    · simp
    · simp
    · simp
    · exact fun hk => hplaced.display i (h.placed_objects hk (by simp))
  · split_ifs with h6 h5 h4
    · simp [h6]
    · simp [h5]
    · simp [h4]
    · exact ⟨fun hk => (hplaced.registry i).mp (h.placed_objects hk (by simp)), fun hi => hi ▸ hkept⟩
  · split_ifs with h6 h5 h4
    · simp
    · simp
    · exact fun _ => h4
    · exact fun hk => absurd (h.placed_objects hk (by simp)) (hnone i)

/-! ## Agreement -/

def boundIndex (selector : Text) : ℕ :=
  if selector ≠ [] ∧ allDigits selector = true then decimalValue selector else 0

/-- Before it is done the compositor announces its seats in order and a manager; when a seat is
bound it gives the name that this has. No object that is in use is deleted. -/
structure Introduced (d : Dispatcher σ) (selector : Text) (announced : List (SeatGlobal × Text))
    (cl₀ : Client σ) : Prop where
  globals : ∃ cl₁ ds, Client.dispatchUntil synced d (opened cl₀) = (.ok true, cl₁) ∧
    cl₁.dispatched = (opened cl₀).dispatched ++ ds ∧ 2 ∉ deletedIn ds ∧
    (globalsIn kIfWlSeat ds).map (fun a => ⟨a.1, a.2⟩) = announced.map Prod.fst ∧
    ∃ mg mgs, (globalsIn kIfZwlrMgr ds).map (fun a => ⟨a.1, a.2⟩) = mg :: mgs ∧
      ∀ a, announced[boundIndex selector]? = some a → ∃ cl₂ ds',
        Client.dispatchUntil synced d (bound a.1 mg cl₁) = (.ok true, cl₂) ∧
        cl₂.dispatched = (bound a.1 mg cl₁).dispatched ++ ds' ∧ 4 ∉ deletedIn ds' ∧
        (namesIn ds').getLast?.getD [] = a.2

/-- A bootstrap ends as `pick_seat` does: with the seat bound, with none, or with the exception. -/
def Agrees (r : Except Halt Bool × Client σ) : Except Halt (Option SeatInfo) → Prop
  | .ok (some seat) => r.1 = .ok true ∧ ∃ version,
      (Request.bind seat.name kIfWlSeat version (session r.2.st).seatId).encode
        (session r.2.st).g.registryId ∈ r.2.written
  | .ok none => r.1 = .ok false
  | .error e => r.1 = .error e

/-- A selector that is not the name of a seat, or one that a number or the first seat is meant by. -/
def Resolvable (selector : Text) (names : List Text) : Prop :=
  selector ∉ names ∨ selector = [] ∨
    if allDigits selector = true then
      decimalValue selector < names.length ∨ 2 ^ 64 ≤ decimalValue selector
    else names.head? = some selector

omit [HasSession σ] in
theorem seatIndex_eq {selector : Text}
    (hvalue : allDigits selector = true → decimalValue selector < 2 ^ 64) :
    (seatIndex selector : Prog Halt (Client σ) ℕ) = pure (boundIndex selector) := by
  unfold seatIndex boundIndex
  split_ifs with h
  · rw [stoul_eq, if_pos (hvalue h.2)]
  · rfl

theorem bindGlobals_bound {d : Dispatcher σ} {selector : Text} {mg : ManagerGlobal}
    {mgs : List ManagerGlobal} {sg : SeatGlobal} {cl : Client σ}
    (hmanagers : (session cl.st).g.managers = mg :: mgs)
    (hvalue : allDigits selector = true → decimalValue selector < 2 ^ 64)
    (hseat : (session cl.st).g.seats[boundIndex selector]? = some sg) :
    bindGlobals d selector cl = (do
      if ← Client.dispatchUntil synced d then return seatNamed selector (← readSession)
      else return false) (bound sg mg cl) := by
  have hne : (session cl.st).g.seats ≠ [] := by
    intro hnil
    rw [hnil] at hseat
    cases hseat
  unfold bindGlobals
  rw [bind_ok (show readSession cl = (.ok (session cl.st), cl) from rfl), hmanagers]
  dsimp only
  rw [if_neg hne, seatIndex_eq hvalue, bind_ok (pure_apply _ _), hseat]
  rfl

section

variable {announced : List (SeatGlobal × Text)} {selector : Text} {s : State}

/-- The seats of the state are those announced. -/
def SameSeats (s : State) (announced : List (SeatGlobal × Text)) : Prop :=
  s.seats.map (fun i => (i.name, i.identifier)) = announced.map fun a => (a.1.name, a.2)

theorem SameSeats.length (h : SameSeats s announced) : s.seats.length = announced.length := by
  simpa using congrArg List.length h

theorem SameSeats.get (h : SameSeats s announced) {k : ℕ} {a : SeatGlobal × Text}
    (ha : announced[k]? = some a) :
    ∃ seat, s.seats[k]? = some seat ∧ seat.name = a.1.name ∧ seat.identifier = a.2 := by
  have hget := congrArg (fun l => l[k]?) h
  simp only [List.getElem?_map, ha, Option.map_some] at hget
  obtain ⟨seat, hseat, heq⟩ := Option.map_eq_some_iff.mp hget
  exact ⟨seat, hseat, congrArg Prod.fst heq, congrArg Prod.snd heq⟩

theorem SameSeats.find_none (h : SameSeats s announced) :
    (s.seats.find? fun i => i.identifier = selector) = none ↔ selector ∉ announced.map Prod.snd := by
  have hnames : s.seats.map SeatInfo.identifier = announced.map Prod.snd := by
    have hmap := congrArg (List.map Prod.snd) h
    rwa [List.map_map, List.map_map] at hmap
  rw [← hnames, List.find?_eq_none]
  simp [List.mem_map]

theorem bindGlobals_empty {d : Dispatcher σ} {cl : Client σ} (h : (session cl.st).g.seats = []) :
    bindGlobals d selector cl = (.ok false, cl) := by
  unfold bindGlobals
  rw [bind_ok (show readSession cl = (.ok (session cl.st), cl) from rfl)]
  rcases (session cl.st).g.managers with _ | ⟨mg, mgs⟩
  · rfl
  · exact congrFun (if_pos h) cl

theorem bindGlobals_overflow {d : Dispatcher σ} {cl : Client σ} {mg : ManagerGlobal}
    {mgs : List ManagerGlobal} (hmanagers : (session cl.st).g.managers = mg :: mgs)
    (hne : (session cl.st).g.seats ≠ []) (hdigits : allDigits selector = true)
    (hvalue : 2 ^ 64 ≤ decimalValue selector) :
    bindGlobals d selector cl = (.error .uncaught, cl) := by
  have hselector : selector ≠ [] := by
    rintro rfl
    exact absurd hvalue (by decide)
  have hindex : (seatIndex selector : Prog Halt (Client σ) ℕ) = Prog.halt .uncaught := by
    rw [seatIndex, if_pos ⟨hselector, hdigits⟩, stoul_eq, if_neg (Nat.not_lt.mpr hvalue)]
  unfold bindGlobals
  rw [bind_ok (show readSession cl = (.ok (session cl.st), cl) from rfl), hmanagers]
  dsimp only
  rw [if_neg hne, hindex]
  rfl

theorem bindGlobals_none {d : Dispatcher σ} {cl : Client σ} {mg : ManagerGlobal}
    {mgs : List ManagerGlobal} (hmanagers : (session cl.st).g.managers = mg :: mgs)
    (hne : (session cl.st).g.seats ≠ [])
    (hvalue : allDigits selector = true → decimalValue selector < 2 ^ 64)
    (hseat : (session cl.st).g.seats[boundIndex selector]? = none) :
    bindGlobals d selector cl = (.ok false, cl) := by
  unfold bindGlobals
  rw [bind_ok (show readSession cl = (.ok (session cl.st), cl) from rfl), hmanagers]
  dsimp only
  rw [if_neg hne, seatIndex_eq hvalue, bind_ok (pure_apply _ _), hseat]
  rfl

/-- What is known of a bound seat when the compositor is done. -/
theorem bound_dispatched {d : Dispatcher σ} (hd : Delegating d) {cl cl₂ : Client σ} {sg : SeatGlobal}
    {mg : ManagerGlobal} {ds : List Delivery} (hplaced : Placed (bound sg mg cl))
    (hseat : (bound sg mg cl).objects 4 = .seat) (hname : (session cl.st).seatName = [])
    (hrun : Client.dispatchUntil synced d (bound sg mg cl) = (.ok true, cl₂))
    (hds : cl₂.dispatched = (bound sg mg cl).dispatched ++ ds) (hkept : 4 ∉ deletedIn ds)
    {name : Text} (hlast : (namesIn ds).getLast?.getD [] = name) :
    (session cl₂.st).seatName = name ∧ (session cl₂.st).seatId = cl.nextId ∧
      (session cl₂.st).g.registryId = (session cl.st).g.registryId ∧
      cl₂.written = (bound sg mg cl).written := by
  obtain ⟨ds', hnoted⟩ := dispatchUntil_noted hd hplaced hrun
  obtain rfl : ds' = ds := List.append_cancel_left (hnoted.dispatched.symm.trans hds)
  obtain ⟨hid, hsame, hregistry⟩ := bound_session sg mg cl
  have hids := hnoted.ids
  refine ⟨?_, (congrArg Ids.seatId hids).trans hid, (congrArg Ids.registryId hids).trans hregistry,
    hnoted.written⟩
  rw [hnoted.seatName hseat hkept, hsame, hname]
  exact hlast

theorem agrees_failed {cl : Client σ} {picked : Option SeatInfo} :
    Agrees (.ok false, cl) (.ok picked) ↔ picked = none := by
  rcases picked with _ | seat
  · exact ⟨fun _ => rfl, fun _ => rfl⟩
  · exact ⟨fun h => absurd h.1 (by simp), nofun⟩

/-- Where none was bound since there is none at the index, a name decides. -/
theorem agrees_unbound_iff (hs : SameSeats s announced) (hempty : announced ≠ [])
    (hvalue : allDigits selector = true → decimalValue selector < 2 ^ 64)
    (ha : announced[boundIndex selector]? = none) {cl : Client σ} :
    Agrees (.ok false, cl) (.ok (pickRule selector s.seats)) ↔
      Resolvable selector (announced.map Prod.snd) := by
  have hrange : announced.length ≤ boundIndex selector := List.getElem?_eq_none_iff.mp ha
  have hpositive : 0 < announced.length := List.length_pos_of_ne_nil hempty
  have hnumeric : selector ≠ [] ∧ allDigits selector = true := by
    by_contra hother
    rw [boundIndex, if_neg hother] at hrange
    omega
  rw [boundIndex, if_pos hnumeric] at hrange
  rw [pickRule_named hnumeric.1 fun h => absurd h.2 (by rw [hs.length]; omega), agrees_failed,
    hs.find_none]
  constructor
  · exact .inl
  · rintro (hname | hselector | hnumber)
    · exact hname
    · exact absurd hselector hnumeric.1
    · rw [if_pos hnumeric.2, List.length_map] at hnumber
      have := hvalue hnumeric.2
      omega

/-- Where the seat at the index was bound, its name has to be the selector, unless a number or
nothing was given. -/
theorem agrees_bound_iff (hs : SameSeats s announced) {a : SeatGlobal × Text}
    (ha : announced[boundIndex selector]? = some a) {cl : Client σ}
    (hname : (session cl.st).seatName = a.2)
    (hbind : ∃ version, (Request.bind a.1.name kIfWlSeat version (session cl.st).seatId).encode
      (session cl.st).g.registryId ∈ cl.written) :
    Agrees (.ok (seatNamed selector (session cl.st)), cl) (.ok (pickRule selector s.seats)) ↔
      Resolvable selector (announced.map Prod.snd) := by
  obtain ⟨seat, hseat, hsame, hidentifier⟩ := hs.get ha
  rw [← hsame] at hbind
  by_cases hselector : selector = []
  · subst hselector
    have hpick : pickRule [] s.seats = some seat := by
      rw [pickRule_first, List.head?_eq_getElem?]
      exact hseat
    rw [hpick]
    exact ⟨fun _ => .inr (.inl rfl), fun _ => ⟨rfl, hbind⟩⟩
  by_cases hdigits : allDigits selector = true
  · rw [show boundIndex selector = decimalValue selector from if_pos ⟨hselector, hdigits⟩]
      at hseat ha
    have hrange : decimalValue selector < announced.length := (List.getElem?_eq_some_iff.mp ha).1
    have hfound : seatNamed selector (session cl.st) = true := by simp [seatNamed, hdigits]
    rw [pickRule_index hselector hdigits (hs.length ▸ hrange), hseat, hfound]
    refine ⟨fun _ => .inr (.inr ?_), fun _ => ⟨rfl, hbind⟩⟩
    rw [if_pos hdigits, List.length_map]
    exact .inl hrange
  · rw [show boundIndex selector = 0 from if_neg fun h => hdigits h.2,
      ← List.head?_eq_getElem?] at hseat ha
    have hfound : seatNamed selector (session cl.st) = decide (a.2 = selector) := by
      simp [seatNamed, hselector, hdigits, hname]
    have hhead : (announced.map Prod.snd).head? = some a.2 := by rw [List.head?_map, ha]; rfl
    rw [pickRule_named hselector fun h => hdigits h.1, hfound]
    by_cases hfirst : a.2 = selector
    · obtain ⟨rest, hrest⟩ := List.head?_eq_some_iff.mp hseat
      have hfind : (s.seats.find? fun i => i.identifier = selector) = some seat := by
        rw [hrest]
        exact List.find?_cons_of_pos (by simpa using hidentifier.trans hfirst)
      rw [hfind, decide_eq_true hfirst]
      refine ⟨fun _ => .inr (.inr ?_), fun _ => ⟨rfl, hbind⟩⟩
      rw [if_neg hdigits, hhead, hfirst]
    · rw [decide_eq_false hfirst, agrees_failed, hs.find_none]
      constructor
      · exact .inl
      · rintro (hname | hempty | hname)
        · exact hname
        · exact absurd hempty hselector
        · rw [if_neg hdigits, hhead] at hname
          exact absurd (Option.some.inj hname) hfirst

/-- The two resolvers agree exactly on the selectors that are resolvable. -/
theorem bootstrap_agrees_iff {d : Dispatcher σ} (hd : Delegating d) {cl₀ : Client σ}
    (blank : Blank cl₀) (introduced : Introduced d selector announced cl₀)
    (hs : SameSeats s announced) :
    Agrees (bootstrap d selector cl₀) (State.pickSeat selector s).1 ↔
      Resolvable selector (announced.map Prod.snd) := by
  obtain ⟨cl₁, ds, hwait, hds, hkept, hglobals, mg, mgs, hmgs, hanswer⟩ := introduced.globals
  have hplaced := opened_placed blank
  obtain ⟨ds', hnoted⟩ := dispatchUntil_noted hd hplaced hwait
  obtain rfl : ds' = ds := List.append_cancel_left (hnoted.dispatched.symm.trans hds)
  have hopened := opened_session blank
  have hseats : (session cl₁.st).g.seats = announced.map Prod.fst := by
    rw [hnoted.seats hkept, hopened, hglobals]
    rfl
  have hmanagers : (session cl₁.st).g.managers = mg :: mgs := by
    rw [hnoted.managers hkept, hopened, hmgs]
    rfl
  have hnone : ∀ i, (opened cl₀).objects i ≠ .seat := by
    intro i
    rw [opened_objects blank]
    split_ifs <;> exact nofun
  have hboot : bootstrap d selector cl₀ = bindGlobals d selector cl₁ := by
    rw [bootstrap_opened, bind_ok hwait]
    rfl
  rw [hboot]
  by_cases hempty : announced = []
  · subst hempty
    have hnil : s.seats = [] := List.eq_nil_of_length_eq_zero hs.length
    rw [(State.pickSeat_rule_iff selector s).mpr (.inl hnil), pickRule, if_pos hnil,
      bindGlobals_empty hseats]
    exact ⟨fun _ => .inl List.not_mem_nil, fun _ => rfl⟩
  have hbindable : (session cl₁.st).g.seats ≠ [] := by simpa [hseats] using hempty
  by_cases hover : allDigits selector = true ∧ 2 ^ 64 ≤ decimalValue selector
  · -- A number that is too large ends both in the exception.
    have hfull : s.seats ≠ [] := fun hnil => by
      have hlen := hs.length
      rw [hnil] at hlen
      exact hempty (List.eq_nil_of_length_eq_zero hlen.symm)
    rw [State.pickSeat_overflow hfull hover.1 (Nat.not_lt.mpr hover.2),
      bindGlobals_overflow hmanagers hbindable hover.1 hover.2]
    refine ⟨fun _ => .inr (.inr ?_), fun _ => rfl⟩
    rw [if_pos hover.1]
    exact .inr hover.2
  have hvalue : allDigits selector = true → decimalValue selector < 2 ^ 64 := fun hdigits =>
    Nat.not_le.mp fun hle => hover ⟨hdigits, hle⟩
  rw [(State.pickSeat_rule_iff selector s).mpr (.inr ?_)]
  swap
  · by_cases hdigits : allDigits selector = true
    · exact .inr (hvalue hdigits)
    · exact .inl (Bool.eq_false_iff.mpr hdigits)
  have hget := congrArg (fun l => l[boundIndex selector]?) hseats
  rcases ha : announced[boundIndex selector]? with _ | a
  · simp only [List.getElem?_map, ha, Option.map_none] at hget
    rw [bindGlobals_none hmanagers hbindable hvalue hget]
    exact agrees_unbound_iff hs hempty hvalue ha
  · simp only [List.getElem?_map, ha, Option.map_some] at hget
    obtain ⟨cl₂, ds₂, hrun, hds₂, hkept₂, hlast⟩ := hanswer a ha
    have hnext : (opened cl₀).nextId = 4 := by
      change cl₀.nextId + 1 + 1 = 4
      rw [blank.nextId]
      rfl
    obtain ⟨hplaced₂, hseat₂⟩ := bound_placed hplaced hnone hnoted hnext hkept a.1 mg
    have hunnamed : (session cl₁.st).seatName = [] := by
      rw [hnoted.unnamed hnone, hopened]
      rfl
    obtain ⟨hnamed, hid, hregistry, hwritten⟩ :=
      bound_dispatched hd hplaced₂ hseat₂ hunnamed hrun hds₂ hkept₂ hlast
    rw [bindGlobals_bound hmanagers hvalue hget, bind_ok hrun]
    refine agrees_bound_iff hs ha hnamed ⟨min a.1.version 7, ?_⟩
    rw [hid, hregistry, hwritten]
    exact bound_written a.1 mg cl₁

end

/-! ## The device of the seat -/

section

variable {bytes : List UInt8}

theorem send_queues (w : Writer) (cl : Client CopyState) :
    w.finalize ∈ (send w cl).2.written := by
  change _ ∈ Process.written { cl.toProcess with trace := cl.trace ++ [.queue w.finalize] }
  rw [written_append]
  exact List.mem_append_right _ List.mem_cons_self

theorem send_keeps (w : Writer) :
    Keeps (fun cl : Client CopyState => bytes ∈ cl.written) (send w) := by
  apply Triple.update
  intro cl hmem
  change bytes ∈ Process.written { cl.toProcess with trace := cl.trace ++ [.queue w.finalize] }
  rw [written_append]
  exact List.mem_append_left _ hmem

theorem sendOffers_keeps (sourceId : UInt32) (mimes : List Text) :
    Keeps (fun cl => bytes ∈ cl.written) (sendOffers sourceId mimes) := by
  induction mimes with
  | nil => exact Triple.pure _ fun _ h => h
  | cons m mimes ih => exact Triple.bind (send_keeps _) fun _ => ih

def createSource (cl : Client CopyState) : Client CopyState :=
  ((do
    let sourceId ← Client.allocId
    Client.setState fun st => { st with sourceId := sourceId }
    Client.registerObject sourceId .source
    let st ← Prog.read Client.st
    send ((Writer.new st.managerId Zdcm.kReqCreateDataSource).u32 sourceId)
    let deviceId ← Client.allocId
    Client.setState fun st => { st with deviceId := deviceId }
    Client.registerObject deviceId .device : Prog Halt (Client CopyState) Unit) cl).2

/-- The device of a copy is that of the seat in the session. -/
theorem announce_asks (sel : Selection) (cl : Client CopyState) : ∃ device,
    (Request.getDataDevice device cl.st.seatId).encode cl.st.managerId ∈
      (announce sel cl).2.written := by
  let w := ((Writer.new cl.st.managerId Zdcm.kReqGetDataDevice).u32 (cl.nextId + 1)).u32
    cl.st.seatId
  have hrun : announce sel cl = (do
      sendOffers cl.nextId cl.st.data.mimeTypes
      send ((Writer.new (cl.nextId + 1) (setSelectionOpcode sel)).u32 cl.nextId))
        (send w (createSource cl)).2 := rfl
  refine ⟨cl.nextId + 1, ?_⟩
  rw [hrun]
  exact (Triple.bind (sendOffers_keeps _ _) fun _ => send_keeps _).reached
    (send_queues w (createSource cl))

/-- The device of a paste is that of the seat in the session. -/
theorem getDevice_asks (cl : Client PasteState) : ∃ device,
    (Request.getDataDevice device cl.st.seatId).encode cl.st.managerId ∈
      (getDevice cl).2.written := by
  refine ⟨cl.nextId, ?_⟩
  change _ ∈ Process.written { cl.toProcess with trace := cl.trace ++ [.queue _] }
  rw [written_append]
  exact List.mem_append_right _ List.mem_cons_self

end

/-- The bootstraps of both operations agree with `pick_seat` exactly on the selectors that are
resolvable, and the seat that they bind is the one that each asks for its device. -/
theorem resolvers_agree_iff {announced : List (SeatGlobal × Text)} {selector : Text} {s : State}
    (hs : SameSeats s announced) :
    (∀ cl : Client CopyState, Blank cl → Introduced copyDispatcher selector announced cl →
      (Agrees (bootstrap copyDispatcher selector cl) (State.pickSeat selector s).1 ↔
        Resolvable selector (announced.map Prod.snd))) ∧
    (∀ cl : Client PasteState, Blank cl → Introduced pasteDispatcher selector announced cl →
      (Agrees (bootstrap pasteDispatcher selector cl) (State.pickSeat selector s).1 ↔
        Resolvable selector (announced.map Prod.snd))) ∧
    (∀ sel (cl : Client CopyState), ∃ device,
      (Request.getDataDevice device (session cl.st).seatId).encode (session cl.st).managerId ∈
        (announce sel cl).2.written) ∧
    ∀ cl : Client PasteState, ∃ device,
      (Request.getDataDevice device (session cl.st).seatId).encode (session cl.st).managerId ∈
        (getDevice cl).2.written :=
  ⟨fun _ blank introduced => bootstrap_agrees_iff copy_delegating blank introduced hs,
    fun _ blank introduced => bootstrap_agrees_iff paste_delegating blank introduced hs,
    announce_asks, getDevice_asks⟩

/-! ### Two seats -/

/-- A client with the display, to which two seats are announced; the one bound is called `a`. -/
def twoSeats {σ : Type} (st : σ) : Client σ :=
  { Client.new (Process.fresh [.sendmsg (.ok 24), .poll (.ok (.ready true)),
      .recvmsg (.ok (event 2 0 [.u32 1, .str kIfWlSeat, .u32 8] ++
        event 2 0 [.u32 2, .str kIfWlSeat, .u32 8] ++
        event 2 0 [.u32 3, .str kIfZwlrMgr, .u32 2] ++ event 3 0 [.u32 0], [])),
      .sendmsg (.ok 1000), .poll (.ok (.ready true)),
      .recvmsg (.ok (event 4 1 [.str (text "a")] ++ event 6 0 [.u32 0], []))]) st with
    objects := fun i => if i = kDisplayId then .display else .unknown }

def seatPair : List (SeatGlobal × Text) := [(⟨1, 8⟩, text "a"), (⟨2, 8⟩, text "b")]

/-- The same seats as the other backends know them. -/
def pairState : State :=
  { State.new (.fresh []) with seats := [⟨0, 1, 7, text "a"⟩, ⟨0, 2, 7, text "b"⟩] }

theorem pairState_same : SameSeats pairState seatPair := rfl

section

variable (d : Dispatcher σ) (st : σ)

def informed : Except Halt Bool × Client σ :=
  Client.dispatchUntil synced d (opened (twoSeats st))

def seated : Except Halt Bool × Client σ :=
  Client.dispatchUntil synced d (bound ⟨1, 8⟩ ⟨3, 2⟩ (informed d st).2)

/-- What is heard while the seat is bound. -/
def heardSeated : List Delivery :=
  (seated d st).2.dispatched.drop (bound ⟨1, 8⟩ ⟨3, 2⟩ (informed d st).2).dispatched.length

end

theorem twoSeats_introduced {d : Dispatcher σ} {st : σ} {selector : Text}
    (hindex : boundIndex selector = 0) (hreturn : (informed d st).1 = .ok true)
    (hreturn' : (seated d st).1 = .ok true)
    (hheard : (seated d st).2.dispatched =
      (bound ⟨1, 8⟩ ⟨3, 2⟩ (informed d st).2).dispatched ++ heardSeated d st)
    (hkept : 2 ∉ deletedIn (informed d st).2.dispatched ∧ 4 ∉ deletedIn (heardSeated d st))
    (hseats : globalsIn kIfWlSeat (informed d st).2.dispatched = [(1, 8), (2, 8)])
    (hmanagers : globalsIn kIfZwlrMgr (informed d st).2.dispatched = [(3, 2)])
    (hnames : namesIn (heardSeated d st) = [text "a"]) :
    Introduced d selector seatPair (twoSeats st) := by
  refine ⟨⟨(informed d st).2, (informed d st).2.dispatched, Prod.ext hreturn rfl, rfl, hkept.1,
    by rw [hseats]; rfl, ⟨3, 2⟩, [], by rw [hmanagers]; rfl, fun a ha => ?_⟩⟩
  rw [hindex] at ha
  obtain rfl := Option.some.inj ha
  refine ⟨(seated d st).2, heardSeated d st, Prod.ext hreturn' rfl, hheard, hkept.2, ?_⟩
  rw [hnames]
  rfl

theorem copy_introduced {selector : Text} (hindex : boundIndex selector = 0) :
    Introduced copyDispatcher selector seatPair
      (twoSeats (CopyState.new ⟨[], [text "text/plain"]⟩ false)) := by
  apply twoSeats_introduced hindex <;> decide +kernel

theorem paste_introduced {selector : Text} (hindex : boundIndex selector = 0) :
    Introduced pasteDispatcher selector seatPair (twoSeats .new) := by
  apply twoSeats_introduced hindex <;> decide +kernel

theorem twoSeats_blank {st : σ} (h : session st = .new) : Blank (twoSeats st) :=
  ⟨rfl, fun _ => rfl, h⟩

theorem resolvers_agree_first :
    Agrees (bootstrap copyDispatcher (text "a")
      (twoSeats (CopyState.new ⟨[], [text "text/plain"]⟩ false)))
        (State.pickSeat (text "a") pairState).1 ∧
    Agrees (bootstrap pasteDispatcher (text "a") (twoSeats .new))
      (State.pickSeat (text "a") pairState).1 := by
  have hagree := @resolvers_agree_iff seatPair (text "a") pairState pairState_same
  have hname : Resolvable (text "a") (seatPair.map Prod.snd) := .inr (.inr (by decide +kernel))
  exact ⟨(hagree.1 _ (twoSeats_blank rfl) (copy_introduced (by decide +kernel))).mpr hname,
    (hagree.2.1 _ (twoSeats_blank rfl) (paste_introduced (by decide +kernel))).mpr hname⟩

/-- By its name the second seat is found where the names are known, and missed where one seat is
bound before its name is known. -/
theorem bootstrap_misses_second :
    Blank (twoSeats PasteState.new) ∧
    Introduced pasteDispatcher (text "b") seatPair (twoSeats .new) ∧
    SameSeats pairState seatPair ∧
    (State.pickSeat (text "b") pairState).1 = .ok (some ⟨0, 2, 7, text "b"⟩) ∧
    (bootstrap pasteDispatcher (text "b") (twoSeats .new)).1 = .ok false := by
  refine ⟨twoSeats_blank rfl, paste_introduced (by decide +kernel), pairState_same, ?_, ?_⟩
  · decide +kernel
  · decide +kernel

end Handcrafted

end WlClip
