import WlClip.Interleaving
import WlClip.X11Properties

/-!
# An X server

What an X server keeps of selections: who owns each, the properties of every window, and the events
that a client has not taken yet. A client is known by its window. Requests take effect in the order
of the log, so a client's own requests do in the order in which it makes them. Events that selections
have nothing to do with may come at any time, and a client may find that an event has not arrived yet.
-/

open LittleEndian

namespace WlClip

open X11

/-- The names that were ever interned and their atoms. -/
structure AtomTable where
  names : Text → Prop
  atomOf : Text → Atom
  nameOf : Atom → Text
  nameOf_atomOf : ∀ n, names n → nameOf (atomOf n) = n
  nonzero : ∀ n, names n → atomOf n ≠ 0
  predefined : nameOf atomPrimary = text "PRIMARY" ∧ nameOf atomAtom = text "ATOM" ∧
    nameOf atomInteger = text "INTEGER" ∧ nameOf atomString = text "STRING"

/-- An atom of another name is another atom. -/
theorem AtomTable.ne_atomOf (t : AtomTable) {a : Atom} {n n' : Text} (hname : t.nameOf a = n)
    (hn : t.names n') (hne : n ≠ n') : a ≠ t.atomOf n' := by
  rintro rfl
  exact hne (hname.symm.trans (t.nameOf_atomOf n' hn))

/-- What a server makes of bytes that are to be stored, if it has room for them. -/
def Property.make (type : Atom) (data : List UInt8) : Option Property :=
  if h : data.length < 2 ^ 34 then some ⟨type, data, h⟩ else none

theorem Property.make_of_lt {type : Atom} {data : List UInt8} (h : data.length < 2 ^ 34) :
    Property.make type data = some ⟨type, data, h⟩ := dif_pos h

structure XServer where
  owner : Atom → Option Window
  stored : Window → Atom → Option Property
  queue : Window → List XEvent

namespace XServer

def initial : XServer := { owner := fun _ => none, stored := fun _ _ => none, queue := fun _ => [] }

def enqueue (v : Window) (e : XEvent) (s : XServer) : XServer :=
  { s with queue := Function.update s.queue v (s.queue v ++ [e]) }

/-- The client of `w` has taken an event. -/
def dequeue (w : Window) (e : XEvent) (s : XServer) : XServer :=
  if e = .other then s else { s with queue := Function.update s.queue w (s.queue w).tail }

def put (v : Window) (name : Atom) (prop : Option Property) (s : XServer) : XServer :=
  { s with stored := Function.update s.stored v (Function.update (s.stored v) name prop) }

def store (v : Window) (name type : Atom) (data : List UInt8) (s : XServer) : XServer :=
  match Property.make type data with
  | none => s
  | some prop => s.put v name (some prop)

/-- The owner of the selection is told of the request, and if there is none the requestor. -/
def convert (requestor : Window) (selection target property : Atom) (s : XServer) : XServer :=
  match s.owner selection with
  | some o => s.enqueue o (.selectionRequest ⟨0, requestor, selection, target, property⟩)
  | none => s.enqueue requestor (.selectionNotify ⟨0, requestor, selection, target, 0⟩)

/-- The owner before is told that it has lost the selection. -/
def own (v : Window) (selection : Atom) (s : XServer) : XServer :=
  let owned := { s with owner := Function.update s.owner selection (some v) }
  match s.owner selection with
  | none => owned
  | some o => if o = v then owned else owned.enqueue o .selectionClear

def destroy (v : Window) (s : XServer) : XServer where
  owner selection := if s.owner selection = some v then none else s.owner selection
  stored := Function.update s.stored v fun _ => none
  queue := Function.update s.queue v []

/-- A property goes when its last bytes are read. -/
def read (v : Window) (name : Atom) (offset length : UInt32) (s : XServer) : XServer :=
  s.put v name (PropertyServer.getProperty ⟨s.stored v name, 0⟩ offset length).2.stored

def request : XRequest → XServer → XServer
  | .convertSelection requestor selection target property, s =>
    s.convert requestor selection target property
  | .setSelectionOwner v selection, s => s.own v selection
  | .changeProperty v name type _ data, s => s.store v name type data
  | .sendNotify v n, s => s.enqueue v (.selectionNotify n)
  | .destroyWindow v, s => s.destroy v

def after (s : XServer) (w : Window) : Action → XServer
  | .xRequest r => s.request r
  | .call .xWaitForEvent (.xWaitForEvent (some e)) => s.dequeue w e
  | .call .xPollForEvent (.xPollForEvent (some e)) => s.dequeue w e
  | .call (.xGetProperty v name offset length) (.xGetProperty _) => s.read v name offset length
  | _ => s

/-- An event that a client may get now. -/
def Delivers (s : XServer) (w : Window) (e : XEvent) : Prop :=
  e = .other ∨ (s.queue w).head? = some e

/-- What the server answers. No request for a name or a property fails. -/
def Allows (t : AtomTable) (s : XServer) (w : Window) : Action → Prop
  | .call (.xConnect _) (.xConnect r) => ∀ fd v, r = some (fd, v) → v = w
  | .call (.xInternAtom name) (.xInternAtom atom) => t.names name ∧ atom = t.atomOf name
  | .call (.xGetAtomName atom) (.xGetAtomName name) => name = t.nameOf atom
  | .call (.xGetSelectionOwner selection) (.xGetSelectionOwner r) =>
    r = some ((s.owner selection).getD 0)
  | .call .xWaitForEvent (.xWaitForEvent r) => ∀ e, r = some e → s.Delivers w e
  | .call .xPollForEvent (.xPollForEvent r) => ∀ e, r = some e → s.Delivers w e
  | .call (.xGetProperty v name offset length) (.xGetProperty r) =>
    r = some (PropertyServer.getProperty ⟨s.stored v name, 0⟩ offset length).1
  | _ => True

/-- The same as a test. -/
def permits (t : AtomTable) [DecidablePred t.names] (s : XServer) (w : Window) : Action → Bool
  | .call (.xConnect _) (.xConnect r) => r.all fun c => c.2 = w
  | .call (.xInternAtom name) (.xInternAtom atom) => t.names name ∧ atom = t.atomOf name
  | .call (.xGetAtomName atom) (.xGetAtomName name) => name = t.nameOf atom
  | .call (.xGetSelectionOwner selection) (.xGetSelectionOwner r) =>
    r = some ((s.owner selection).getD 0)
  | .call .xWaitForEvent (.xWaitForEvent r) =>
    r.all fun e => e = .other ∨ (s.queue w).head? = some e
  | .call .xPollForEvent (.xPollForEvent r) =>
    r.all fun e => e = .other ∨ (s.queue w).head? = some e
  | .call (.xGetProperty v name offset length) (.xGetProperty r) =>
    r = some (PropertyServer.getProperty ⟨s.stored v name, 0⟩ offset length).1
  | _ => true

theorem allows_of_permits {t : AtomTable} [DecidablePred t.names] {s : XServer} {w : Window}
    {a : Action} (h : s.permits t w a = true) : Allows t s w a := by
  unfold permits at h
  split at h
  · rintro fd v rfl
    simpa using h
  · exact (of_decide_eq_true h :)
  · exact (of_decide_eq_true h :)
  · exact (of_decide_eq_true h :)
  · rintro e rfl
    simpa [Delivers] using h
  · rintro e rfl
    simpa [Delivers] using h
  · exact (of_decide_eq_true h :)
  · unfold Allows
    split <;> first | trivial | grind

def permitsAll (t : AtomTable) [DecidablePred t.names] : XServer → List (Window × Action) → Bool
  | _, [] => true
  | s, a :: log => s.permits t a.1 a.2 && permitsAll t (s.after a.1 a.2) log

def environment (t : AtomTable) : Interleaving.Environment Window Action XServer where
  Allows := Allows t
  after := after

theorem conforms_of_permitsAll {t : AtomTable} [DecidablePred t.names] {s : XServer}
    {log : List (Window × Action)} (h : permitsAll t s log = true) :
    (environment t).Conforms s log := by
  induction log generalizing s with
  | nil => trivial
  | cons a log ih =>
      rw [permitsAll, Bool.and_eq_true] at h
      exact ⟨allows_of_permits h.1, ih h.2⟩

/-! ## What the operations leave alone -/

variable {s : XServer} {v w : Window} {e : XEvent} {name : Atom}

theorem enqueue_queue_self : (s.enqueue v e).queue v = s.queue v ++ [e] := Function.update_self ..

theorem enqueue_queue_of_ne (h : w ≠ v) : (s.enqueue v e).queue w = s.queue w :=
  Function.update_of_ne h ..

theorem dequeue_queue_of_ne (h : v ≠ w) : (s.dequeue w e).queue v = s.queue v := by
  unfold dequeue
  split_ifs
  · rfl
  · exact Function.update_of_ne h ..

@[simp] theorem dequeue_owner : (s.dequeue w e).owner = s.owner := by
  unfold dequeue
  split_ifs <;> rfl

@[simp] theorem dequeue_stored : (s.dequeue w e).stored = s.stored := by
  unfold dequeue
  split_ifs <;> rfl

theorem dequeue_queue_self (he : e ≠ .other) : (s.dequeue w e).queue w = (s.queue w).tail := by
  rw [dequeue, if_neg he]
  exact Function.update_self ..

/-- An event that is taken was the first in the queue, unless it is of no concern. -/
theorem Delivers.queue (h : s.Delivers w e) (he : e ≠ .other) :
    s.queue w = e :: (s.dequeue w e).queue w := by
  have hhead : (s.queue w).head? = some e := h.resolve_left he
  rw [dequeue_queue_self he]
  exact (List.cons_head?_tail hhead).symm

@[simp] theorem dequeue_other : s.dequeue w .other = s := if_pos rfl

theorem put_stored_self {prop : Option Property} : (s.put v name prop).stored v name = prop := by
  simp [put]

theorem put_stored_of_ne {prop : Option Property} (h : w ≠ v) :
    (s.put v name prop).stored w = s.stored w := Function.update_of_ne h ..

@[simp] theorem store_queue {type : Atom} {data : List UInt8} :
    (s.store v name type data).queue = s.queue := by
  unfold store
  split <;> rfl

@[simp] theorem store_owner {type : Atom} {data : List UInt8} :
    (s.store v name type data).owner = s.owner := by
  unfold store
  split <;> rfl

theorem store_stored_self {type : Atom} {data : List UInt8} (h : data.length < 2 ^ 34) :
    (s.store v name type data).stored v name = some ⟨type, data, h⟩ := by
  rw [store, Property.make_of_lt h]
  exact put_stored_self

theorem store_stored_of_ne {type : Atom} {data : List UInt8} (h : w ≠ v) :
    (s.store v name type data).stored w = s.stored w := by
  unfold store
  split
  · rfl
  · exact put_stored_of_ne h

theorem destroy_queue_of_ne (h : w ≠ v) : (s.destroy v).queue w = s.queue w :=
  Function.update_of_ne h ..

theorem destroy_queue_self : (s.destroy v).queue v = [] := Function.update_self ..

theorem destroy_stored_of_ne (h : w ≠ v) : (s.destroy v).stored w = s.stored w :=
  Function.update_of_ne h ..

theorem destroy_owner {selection : Atom} (h : (s.destroy v).owner selection = some w) :
    s.owner selection = some w := by
  rw [destroy] at h
  dsimp only at h
  split_ifs at h
  exact h

@[simp] theorem own_stored {selection : Atom} : (s.own v selection).stored = s.stored := by
  unfold own
  dsimp only
  split
  · rfl
  · split_ifs <;> rfl

/-- Apart from the word to the one that has lost it, owning a selection leaves the queues. -/
theorem own_queue {selection : Atom} : (s.own v selection).queue w = s.queue w ∨
    (s.own v selection).queue w = s.queue w ++ [.selectionClear] := by
  unfold own
  dsimp only
  split
  · exact .inl rfl
  · next o _ =>
    split_ifs
    · exact .inl rfl
    · by_cases h : w = o
      · subst h
        exact .inr enqueue_queue_self
      · exact .inl (enqueue_queue_of_ne h)

theorem own_owner {selection selection' : Atom} : (s.own v selection).owner selection' =
    if selection' = selection then some v else s.owner selection' := by
  have howned : (s.own v selection).owner = Function.update s.owner selection (some v) := by
    unfold own
    dsimp only
    split
    · rfl
    · split_ifs <;> rfl
  rw [howned, Function.update_apply]

end XServer

end WlClip
