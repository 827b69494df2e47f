import WlClip.X11Targets

/-!
# The replies of the X11 copy

The owner of a selection answers each request for it with a notification, and unless it refuses it
stores a property before. The replies depend on the request only, so a run of the loop is the list
of the events that it took, each followed by its reply, up to the first event that stops it.
-/

open ScriptedProgram ScriptedProgram.Prog LittleEndian

namespace WlClip

namespace X11

/-! ## One reply -/

/-- Another selection is asked for, or a type that the owner has nothing for. -/
def Refuses (ctx : CopyContext) (req : SelectionRequest) : Prop :=
  req.selection ≠ ctx.selatom ∨ req.target ≠ ctx.x.atoms.targets ∧
    req.target ≠ ctx.x.atoms.timestamp ∧
    matchTarget ctx.targets ctx.data.mimeTypes req.target ctx.x.atoms = []

/-- The payload is asked for, and there is one. -/
def Pays (ctx : CopyContext) (req : SelectionRequest) : Prop :=
  ¬ Refuses ctx req ∧ req.target ≠ ctx.x.atoms.targets ∧ req.target ≠ ctx.x.atoms.timestamp

instance (ctx : CopyContext) (req : SelectionRequest) : Decidable (Refuses ctx req) :=
  inferInstanceAs (Decidable (_ ∨ _))

instance (ctx : CopyContext) (req : SelectionRequest) : Decidable (Pays ctx req) :=
  inferInstanceAs (Decidable (_ ∧ _))

/-- The property that the requestor names, or else its target. -/
def replyProperty (req : SelectionRequest) : Atom :=
  if req.property = 0 then req.target else req.property

def notification (req : SelectionRequest) (prop : Atom) : XRequest :=
  .sendNotify req.requestor ⟨req.time, req.requestor, req.selection, req.target, prop⟩

def storing (ctx : CopyContext) (payload : List UInt8) (req : SelectionRequest) : XRequest :=
  if req.target = ctx.x.atoms.targets then
    .changeProperty req.requestor (replyProperty req) atomAtom 32
      (ctx.targets.flatMap fun t => u32Bytes t.atom)
  else if req.target = ctx.x.atoms.timestamp then
    .changeProperty req.requestor (replyProperty req) atomInteger 32 (u32Bytes 0)
  else .changeProperty req.requestor (replyProperty req) req.target 8 payload

def reply (ctx : CopyContext) (payload : List UInt8) (req : SelectionRequest) : List XRequest :=
  if Refuses ctx req then [notification req 0]
  else [storing ctx payload req, notification req (replyProperty req)]

theorem counted_eq {α : Type} {items : List α} : counted items = items ↔ items.length < 2 ^ 32 := by
  have hpos : 0 < 2 ^ 32 := by decide
  constructor
  · intro h
    have hlen := congrArg List.length h
    rw [counted, List.length_take] at hlen
    have hlt := Nat.mod_lt items.length hpos
    omega
  · intro h
    rw [counted, Nat.mod_eq_of_lt h, List.take_length]

theorem answerRequest_eq {ctx : CopyContext} (hcount : ctx.targets.length < 2 ^ 32)
    (req : SelectionRequest) (p : Process) :
    answerRequest ctx req p = (.ok (decide (Pays ctx req)),
      p.after ((reply ctx (counted ctx.data.bytes) req).map .xRequest) p.script) := by
  have hafter : ∀ prop type format data, setProperty req prop type format data p =
      (.ok (), p.after [.xRequest (.changeProperty req.requestor prop type format data),
        .xRequest (notification req prop)] p.script) := by
    intro prop type format data
    simp [setProperty, bind_apply, Process.xRequest, Process.record, sendSelectionNotify,
      Process.after, notification]
  have hrefuse : Refuses ctx req → (.ok false, p.after [.xRequest (notification req 0)] p.script) =
      ((.ok (decide (Pays ctx req)), p.after ((reply ctx (counted ctx.data.bytes) req).map .xRequest)
        p.script) : Except Halt Bool × Process) := by
    intro h
    have hpays : ¬ Pays ctx req := fun hpays => hpays.1 h
    rw [reply, if_pos h, decide_eq_false hpays]
    rfl
  unfold answerRequest
  by_cases hsel : req.selection ≠ ctx.selatom
  · rw [if_pos hsel]
    exact hrefuse (.inl hsel)
  rw [if_neg hsel]
  by_cases htargets : req.target = ctx.x.atoms.targets
  · have hkept : ¬ Refuses ctx req := fun h => h.elim hsel fun h => h.1 htargets
    have hpays : ¬ Pays ctx req := fun hpays => hpays.2.1 htargets
    rw [if_pos htargets, bind_ok (hafter _ _ _ _), reply, if_neg hkept, storing, if_pos htargets,
      decide_eq_false hpays, counted_eq.mpr hcount]
    rfl
  rw [if_neg htargets]
  by_cases htimestamp : req.target = ctx.x.atoms.timestamp
  · have hkept : ¬ Refuses ctx req := fun h => h.elim hsel fun h => h.2.1 htimestamp
    have hpays : ¬ Pays ctx req := fun hpays => hpays.2.2 htimestamp
    rw [if_pos htimestamp, bind_ok (hafter _ _ _ _), reply, if_neg hkept, storing, if_neg htargets,
      if_pos htimestamp, decide_eq_false hpays]
    rfl
  rw [if_neg htimestamp]
  by_cases hmatch : matchTarget ctx.targets ctx.data.mimeTypes req.target ctx.x.atoms = []
  · rw [if_pos hmatch]
    exact hrefuse (.inr ⟨htargets, htimestamp, hmatch⟩)
  · have hkept : ¬ Refuses ctx req := fun h => h.elim hsel fun h => hmatch h.2.2
    rw [if_neg hmatch, bind_ok (hafter _ _ _ _), reply, if_neg hkept, storing, if_neg htargets,
      if_neg htimestamp, decide_eq_true ⟨hkept, htargets, htimestamp⟩]
    rfl

/-! ## The loop -/

def replies (ctx : CopyContext) (payload : List UInt8) : XEvent → List XRequest
  | .selectionRequest req => reply ctx payload req
  | _ => []

def turn (ctx : CopyContext) (payload : List UInt8) (e : XEvent) : List Action :=
  .call .xWaitForEvent (.xWaitForEvent (some e)) :: (replies ctx payload e).map .xRequest

def paid (ctx : CopyContext) : XEvent → Bool
  | .selectionRequest req => Pays ctx req
  | _ => false

/-- The selection is lost, or the one payload of a oneshot copy was given. -/
def stops (ctx : CopyContext) (oneshot : Bool) : XEvent → Bool
  | .selectionClear => true
  | e => oneshot && paid ctx e

/-- The events that the server delivers, up to the end of the connection or of the script. -/
def events : List Reply → List XEvent
  | .xWaitForEvent (some e) :: rest => e :: events rest
  | _ => []

/-- Those up to the first that stops the loop. -/
def processed (ctx : CopyContext) (oneshot : Bool) (script : List Reply) : List XEvent :=
  (events script).take ((events script).findIdx (stops ctx oneshot) + 1)

/-- The connection is lost before an event stops the loop. -/
def Disconnected (ctx : CopyContext) (oneshot : Bool) (script : List Reply) : Prop :=
  (events script).any (stops ctx oneshot) = false ∧
    (script.drop (events script).length).head? = some (.xWaitForEvent none)

instance (ctx : CopyContext) (oneshot : Bool) (script : List Reply) :
    Decidable (Disconnected ctx oneshot script) := inferInstanceAs (Decidable (_ ∧ _))

/-- How the loop ends: with the payloads counted, or waiting for the next event. -/
def ending (ctx : CopyContext) (oneshot : Bool) (script : List Reply) : Except Halt Serving :=
  if (events script).any (stops ctx oneshot) then
    .ok ⟨(processed ctx oneshot script).countP (paid ctx), true⟩
  else if Disconnected ctx oneshot script then
    .ok ⟨(processed ctx oneshot script).countP (paid ctx), false⟩
  else .error (.waiting .xWaitForEvent)

def course (ctx : CopyContext) (oneshot : Bool) (payload : List UInt8) (script : List Reply) :
    List Action :=
  (processed ctx oneshot script).flatMap (turn ctx payload) ++
    if Disconnected ctx oneshot script then [.call .xWaitForEvent (.xWaitForEvent none)] else []

section Loop

variable {ctx : CopyContext} {oneshot : Bool} {p : Process} {rest : List Reply} {e : XEvent}

theorem serveRound_event (hcount : ctx.targets.length < 2 ^ 32) (n : ℕ)
    (hs : p.script = .xWaitForEvent (some e) :: rest) :
    serveRound ctx oneshot ⟨n, false⟩ p =
      (.ok (.inl ⟨n + (if paid ctx e then 1 else 0), stops ctx oneshot e⟩),
        p.after (turn ctx (counted ctx.data.bytes) e) rest) := by
  have hwait : Process.xWaitForEvent p =
      (.ok (some e), p.after [.call .xWaitForEvent (.xWaitForEvent (some e))] rest) :=
    Process.ask_cons hs rfl
  rw [serveRound, if_neg (by simp), bind_ok hwait]
  cases e with
  | selectionRequest req =>
      have hanswer := answerRequest_eq hcount req
        (p.after [.call .xWaitForEvent (.xWaitForEvent (some (.selectionRequest req)))] rest)
      dsimp only
      rw [bind_ok hanswer, Process.after_after]
      by_cases hpays : Pays ctx req <;> simp [paid, stops, hpays, turn, replies, Process.after]
  | selectionClear => rfl
  | selectionNotify m => simp [paid, stops, turn, replies]
  | other => simp [paid, stops, turn, replies]

theorem serveRound_lost (n : ℕ) : serveRound ctx oneshot ⟨n, true⟩ p = (.ok (.inr ⟨n, true⟩), p) :=
  rfl

theorem serveRound_closed (n : ℕ) (hs : p.script = .xWaitForEvent none :: rest) :
    serveRound ctx oneshot ⟨n, false⟩ p =
      (.ok (.inr ⟨n, false⟩), p.after [.call .xWaitForEvent (.xWaitForEvent none)] rest) := by
  have hwait : Process.xWaitForEvent p =
      (.ok none, p.after [.call .xWaitForEvent (.xWaitForEvent none)] rest) :=
    Process.ask_cons hs rfl
  rw [serveRound, if_neg (by simp), bind_ok hwait]
  rfl

theorem serveRound_waiting (n : ℕ) (hs : ∀ event rest, p.script ≠ .xWaitForEvent event :: rest) :
    serveRound ctx oneshot ⟨n, false⟩ p = (.error (.waiting .xWaitForEvent), p) := by
  have hwait : Process.xWaitForEvent p = (.error (.waiting .xWaitForEvent), p) := by
    apply Process.ask_blocked
    rintro (_ | _) rest hr <;> first | rfl | exact absurd hr (hs _ rest)
  rw [serveRound, if_neg (by simp), bind_error hwait]

theorem next_event (script : List Reply) :
    (∃ e rest, script = .xWaitForEvent (some e) :: rest) ∨
      (∃ rest, script = .xWaitForEvent none :: rest) ∨
      ∀ event rest, script ≠ .xWaitForEvent event :: rest := by
  rcases script with _ | ⟨r, rest⟩
  · exact .inr (.inr nofun)
  · cases r with
    | xWaitForEvent event =>
        rcases event with _ | e
        · exact .inr (.inl ⟨rest, rfl⟩)
        · exact .inl ⟨e, rest, rfl⟩
    | _ => exact .inr (.inr nofun)

theorem serveRound_shrinks (hcount : ctx.targets.length < 2 ^ 32) :
    Shrinks (fun _ p => p.size) (serveRound ctx oneshot) := by
  rintro ⟨n, _ | _⟩ p s' p' h
  · rcases next_event p.script with ⟨e, rest, hs⟩ | ⟨rest, hs⟩ | hs
    · rw [serveRound_event hcount n hs] at h
      cases h
      simp [Process.size, Process.after, hs, Reply.size]
    · rw [serveRound_closed n hs] at h
      cases h
    · rw [serveRound_waiting n hs] at h
      cases h
  · rw [serveRound_lost] at h
    cases h

theorem events_cons {script : List Reply} {es : List XEvent} (h : events script = e :: es) :
    ∃ rest, script = .xWaitForEvent (some e) :: rest ∧ events rest = es := by
  unfold events at h
  split at h
  · cases h
    exact ⟨_, rfl, rfl⟩
  · cases h

theorem processed_cons (ctx : CopyContext) (oneshot : Bool) (e : XEvent) (rest : List Reply) :
    processed ctx oneshot (.xWaitForEvent (some e) :: rest) =
      e :: if stops ctx oneshot e then [] else processed ctx oneshot rest := by
  unfold processed
  rw [events, List.findIdx_cons]
  by_cases h : stops ctx oneshot e <;> simp [h]

theorem disconnected_cons (ctx : CopyContext) (oneshot : Bool) (e : XEvent) (rest : List Reply) :
    Disconnected ctx oneshot (.xWaitForEvent (some e) :: rest) ↔
      stops ctx oneshot e = false ∧ Disconnected ctx oneshot rest := by
  unfold Disconnected
  rw [events]
  by_cases h : stops ctx oneshot e <;> simp [h]

/-- What the loop leaves of its script. -/
def leftover (ctx : CopyContext) (oneshot : Bool) (script : List Reply) : List Reply :=
  script.drop ((processed ctx oneshot script).length +
    if Disconnected ctx oneshot script then 1 else 0)

theorem serveLoop_run (hcount : ctx.targets.length < 2 ^ 32) (n : ℕ) (p : Process) :
    loop .stuck (fun _ p => p.size) (serveRound ctx oneshot) ⟨n, false⟩ p =
      ((ending ctx oneshot p.script).map fun s => ⟨n + s.served, s.lost⟩,
        p.after (course ctx oneshot (counted ctx.data.bytes) p.script)
          (leftover ctx oneshot p.script)) := by
  have hshrinks : Shrinks (fun _ p => p.size) (serveRound ctx oneshot) :=
    serveRound_shrinks hcount
  induction hes : events p.script generalizing n p with
  | nil =>
      have hprocessed : processed ctx oneshot p.script = [] := by simp [processed, hes]
      rcases next_event p.script with ⟨e, rest, hs⟩ | ⟨rest, hs⟩ | hs
      · rw [hs] at hes
        cases hes
      · have hclosed : Disconnected ctx oneshot p.script := by simp [Disconnected, hs, events]
        rw [loop_return hshrinks (serveRound_closed n hs)]
        rw [hs] at hprocessed hes hclosed ⊢
        simp [ending, course, leftover, hprocessed, hes, hclosed, Except.map]
      · have hopen : ¬ Disconnected ctx oneshot p.script := by
          rintro ⟨-, hhead⟩
          rw [hes] at hhead
          rcases hscript : p.script with _ | ⟨r, rest⟩ <;> rw [hscript] at hhead
          · cases hhead
          · cases hhead
            exact hs _ _ hscript
        rw [loop_error hshrinks (serveRound_waiting n hs)]
        simp [ending, course, leftover, hprocessed, hes, hopen, Except.map, Process.after]
  | cons e es ih =>
      obtain ⟨rest, hs, hrest⟩ := events_cons hes
      rw [loop_next hshrinks (serveRound_event hcount n hs), hs]
      have hprocessed := processed_cons ctx oneshot e rest
      have hdisc := disconnected_cons ctx oneshot e rest
      by_cases hstop : stops ctx oneshot e
      · have hopen : ¬ Disconnected ctx oneshot (.xWaitForEvent (some e) :: rest) := by
          rw [hdisc, hstop]
          simp
        have hany : (events (.xWaitForEvent (some e) :: rest)).any (stops ctx oneshot) = true := by
          simp [events, hstop]
        rw [if_pos hstop] at hprocessed
        rw [hstop, loop_return hshrinks (serveRound_lost _), ending, if_pos hany, course, leftover,
          if_neg hopen, if_neg hopen, hprocessed]
        simp [Except.map, List.countP_cons]
      · rw [Bool.not_eq_true] at hstop
        have hrun := ih (n + if paid ctx e then 1 else 0)
          (p.after (turn ctx (counted ctx.data.bytes) e) rest) hrest
        rw [hstop, if_neg Bool.false_ne_true] at hprocessed
        rw [hstop, hrun]
        have hending : ending ctx oneshot (.xWaitForEvent (some e) :: rest) =
            (ending ctx oneshot rest).map fun s =>
              ⟨(if paid ctx e then 1 else 0) + s.served, s.lost⟩ := by
          unfold ending
          rw [hprocessed]
          simp only [hdisc, events, List.any_cons, hstop, Bool.false_or, true_and, List.countP_cons]
          split_ifs <;> simp [Except.map, Nat.add_comm]
        have hcourse : course ctx oneshot (counted ctx.data.bytes) (.xWaitForEvent (some e) :: rest) =
            turn ctx (counted ctx.data.bytes) e ++
              course ctx oneshot (counted ctx.data.bytes) rest := by
          simp only [course, hprocessed, hdisc, hstop, true_and, List.flatMap_cons, List.append_assoc]
        have hleft : leftover ctx oneshot (.xWaitForEvent (some e) :: rest) =
            leftover ctx oneshot rest := by
          simp only [leftover, hprocessed, hdisc, hstop, true_and, List.length_cons]
          rw [Nat.add_right_comm, List.drop_succ_cons]
        rw [hending, hcourse, hleft, Process.after_after]
        change ((ending ctx oneshot rest).map _, _) = _
        rcases ending ctx oneshot rest with e | s
        · rfl
        · simp only [Except.map, Nat.add_assoc]
          rfl

end Loop

/-- A round that gets a request for the atom, of the selection that is owned, stores the payload with
the atom as its type. -/
def Delivers (ctx : CopyContext) (a : Atom) : Prop :=
  ∀ (req : SelectionRequest) (oneshot : Bool) (n : ℕ) (p : Process) (rest : List Reply),
    req.selection = ctx.selatom → req.target = a →
    p.script = .xWaitForEvent (some (.selectionRequest req)) :: rest →
    serveRound ctx oneshot ⟨n, false⟩ p = (.ok (.inl ⟨n + 1, oneshot⟩),
      p.after [.call .xWaitForEvent (.xWaitForEvent (some (.selectionRequest req))),
        .xRequest (.changeProperty req.requestor (replyProperty req) a 8 ctx.data.bytes),
        .xRequest (notification req (replyProperty req))] rest)

theorem delivers_iff {ctx : CopyContext} (hcount : ctx.targets.length < 2 ^ 32) (a : Atom) :
    Delivers ctx a ↔ (a ≠ ctx.x.atoms.targets ∧ a ≠ ctx.x.atoms.timestamp ∧
      matchTarget ctx.targets ctx.data.mimeTypes a ctx.x.atoms ≠ []) ∧
        ctx.data.bytes.length < 2 ^ 32 := by
  have hpays : ∀ req : SelectionRequest, req.selection = ctx.selatom → req.target = a →
      (Pays ctx req ↔ a ≠ ctx.x.atoms.targets ∧ a ≠ ctx.x.atoms.timestamp ∧
        matchTarget ctx.targets ctx.data.mimeTypes a ctx.x.atoms ≠ []) := by
    rintro req hsel rfl
    rw [Pays, Refuses]
    tauto
  constructor
  · intro h
    let req : SelectionRequest := ⟨0, 0, ctx.selatom, a, 1⟩
    let p := Process.fresh [.xWaitForEvent (some (.selectionRequest req))]
    have hs : p.script = .xWaitForEvent (some (.selectionRequest req)) :: [] := rfl
    have hround : serveRound ctx false ⟨0, false⟩ p = _ := serveRound_event hcount 0 hs
    rw [h req false 0 p [] rfl rfl rfl] at hround
    obtain ⟨hresult, hafter⟩ := Prod.mk.inj hround
    have hpaid : Pays ctx req := by
      by_contra hno
      simp [paid, hno] at hresult
    refine ⟨(hpays req rfl rfl).mp hpaid, ?_⟩
    have htrace := congrArg Process.trace hafter
    simp only [Process.after, turn, replies, reply, if_neg hpaid.1, storing, if_neg hpaid.2.1,
      if_neg hpaid.2.2] at htrace
    simp only [List.map_cons, List.map_nil, List.append_cancel_left_eq, List.cons.injEq,
      Action.xRequest.injEq, XRequest.changeProperty.injEq, true_and, and_true] at htrace
    exact counted_eq.mp htrace.2.symm
  · rintro ⟨hserved, hlen⟩ req oneshot n p rest hsel htarget hs
    have hpaid := (hpays req hsel htarget).mpr hserved
    rw [serveRound_event hcount n hs, counted_eq.mpr hlen]
    simp [paid, stops, hpaid, turn, replies, reply, hpaid.1, storing, htarget, hserved.1, hserved.2.1]

/-! ## What a run replies -/

/-- The run of the loop from its start gives each request that it takes one reply: a notification
without a property exactly if it refuses, and else the property that holds what was asked for. It
ends at the first event that stops it or with the connection, and counts the payloads. -/
structure Correct (ctx : CopyContext) (oneshot : Bool) (p : Process) : Prop where
  result : (loop .stuck (fun _ p => p.size) (serveRound ctx oneshot) ⟨0, false⟩ p).1 =
    ending ctx oneshot p.script
  trace : (loop .stuck (fun _ p => p.size) (serveRound ctx oneshot) ⟨0, false⟩ p).2.trace =
    p.trace ++ course ctx oneshot ctx.data.bytes p.script
  named : ∀ req, .selectionRequest req ∈ processed ctx oneshot p.script → ¬ Refuses ctx req →
    replyProperty req ≠ 0

variable {ctx : CopyContext} {oneshot : Bool} {p : Process}

def protocolAtoms (a : Atoms) : List Atom := [a.targets, a.timestamp, a.utf8String, a.string, a.text]

theorem matchTarget_zero (htargets : Advertised ctx.targets) (hatoms : 0 ∉ protocolAtoms ctx.x.atoms) :
    matchTarget ctx.targets ctx.data.mimeTypes 0 ctx.x.atoms = [] := by
  have hnone : (ctx.targets.find? fun t => t.atom = 0) = none := by
    rw [List.find?_eq_none]
    intro t ht
    simpa using htargets.nonzero t ht
  simp only [protocolAtoms, List.mem_cons, List.not_mem_nil, or_false, not_or] at hatoms
  obtain ⟨-, -, hutf8, hstring, htext⟩ := hatoms
  rw [matchTarget, if_neg (by simp [hutf8, hstring, htext]), hnone]

/-- A request that is not refused names a property, or a target that is an atom. -/
theorem replyProperty_ne_zero (htargets : Advertised ctx.targets)
    (hatoms : 0 ∉ protocolAtoms ctx.x.atoms) {req : SelectionRequest} (h : ¬ Refuses ctx req) :
    replyProperty req ≠ 0 := by
  unfold replyProperty
  split_ifs with hprop
  · intro hzero
    apply h
    have hnone := matchTarget_zero htargets hatoms
    simp only [protocolAtoms, List.mem_cons, List.not_mem_nil, or_false, not_or] at hatoms
    rw [Refuses, hzero]
    exact .inr ⟨hatoms.1, hatoms.2.1, hnone⟩
  · exact hprop

theorem turn_length (payload payload' : List UInt8) (e : XEvent) :
    (turn ctx payload e).length = (turn ctx payload' e).length := by
  cases e with
  | selectionRequest req =>
      simp only [turn, replies, reply]
      split_ifs <;> rfl
  | _ => rfl

theorem flatMap_inj {α β : Type} {f g : α → List β} {l : List α}
    (hlen : ∀ a, (f a).length = (g a).length) (h : l.flatMap f = l.flatMap g) :
    ∀ a ∈ l, f a = g a := by
  induction l with
  | nil => exact List.forall_mem_nil _
  | cons a l ih =>
      rw [List.flatMap_cons, List.flatMap_cons] at h
      obtain ⟨hfirst, hrest⟩ := List.append_inj h (hlen a)
      exact List.forall_mem_cons.mpr ⟨hfirst, ih hrest⟩

theorem Correct.payload (htargets : Advertised ctx.targets) (h : Correct ctx oneshot p)
    {req : SelectionRequest} (hreq : .selectionRequest req ∈ processed ctx oneshot p.script)
    (hpays : Pays ctx req) : ctx.data.bytes.length < 2 ^ 32 := by
  have htrace := h.trace
  rw [serveLoop_run htargets.length_lt] at htrace
  have hcourse := List.append_cancel_right (List.append_cancel_left htrace)
  have hturn := flatMap_inj (fun e => turn_length _ _ e) hcourse _ hreq
  simp only [turn, replies, reply, if_neg hpays.1, storing, if_neg hpays.2.1,
    if_neg hpays.2.2] at hturn
  simp only [List.map_cons, List.cons.injEq, Action.xRequest.injEq, XRequest.changeProperty.injEq,
    true_and, and_true] at hturn
  exact counted_eq.mp hturn

theorem reply_unpaid {req : SelectionRequest} (h : ¬ Pays ctx req) (payload payload' : List UInt8) :
    reply ctx payload req = reply ctx payload' req := by
  unfold reply
  split_ifs with hrefuse
  · rfl
  unfold storing
  split_ifs with htargets htimestamp
  · rfl
  · rfl
  · exact absurd ⟨hrefuse, htargets, htimestamp⟩ h

theorem correct_of_payload (htargets : Advertised ctx.targets)
    (hatoms : 0 ∉ protocolAtoms ctx.x.atoms)
    (h : ctx.data.bytes.length < 2 ^ 32 ∨
      ∀ req, .selectionRequest req ∈ processed ctx oneshot p.script → ¬ Pays ctx req) :
    Correct ctx oneshot p := by
  have hrun : loop .stuck (fun _ p => p.size) (serveRound ctx oneshot) ⟨0, false⟩ p = _ :=
    serveLoop_run htargets.length_lt 0 p
  have hturn : ∀ e ∈ processed ctx oneshot p.script,
      turn ctx (counted ctx.data.bytes) e = turn ctx ctx.data.bytes e := by
    intro e he
    rcases h with hlen | hnone
    · rw [counted_eq.mpr hlen]
    · cases e with
      | selectionRequest req =>
          simp only [turn, replies]
          rw [reply_unpaid (hnone req he)]
      | _ => rfl
  refine ⟨?_, ?_, fun req _ hreq => replyProperty_ne_zero htargets hatoms hreq⟩
  · rw [hrun]
    dsimp only
    rcases ending ctx oneshot p.script with e | s
    · rfl
    · simp [Except.map]
  · rw [hrun]
    change p.trace ++ _ = _
    rw [course, course, List.flatMap_congr hturn]

/-- The loop of an acquired selection replies correctly exactly if no payload is given, or its length
fits into 32 bits. -/
theorem serveSelection_correct_iff {display : Text} {sel : Selection} {data : CopyData}
    {p₀ q₀ : Process} (h : acquireSelection display sel data p₀ = (.ok (some ctx), q₀))
    (hatoms : 0 ∉ protocolAtoms ctx.x.atoms) (oneshot : Bool) (p : Process) :
    Correct ctx oneshot p ↔ data.bytes.length < 2 ^ 32 ∨
      ∀ req, .selectionRequest req ∈ processed ctx oneshot p.script → ¬ Pays ctx req := by
  have htargets := acquireSelection_advertised h
  obtain ⟨p₁, p₂, -, -, -, rfl, -⟩ := acquireSelection_ok h
  constructor
  · intro hcorrect
    by_cases hlen : ctx.data.bytes.length < 2 ^ 32
    · exact .inl hlen
    · exact .inr fun req hreq hpays => hlen (hcorrect.payload htargets hreq hpays)
  · exact correct_of_payload htargets hatoms

/-! ## A copy of text -/

/-- The server of a copy that becomes the owner of its selection, with the atoms of its types. -/
def owning (atoms : List Atom) : Process :=
  .fresh (.xConnect (some (3, 42)) ::
    ([300, 301, 302, 303, 304, 305, 306, 307, 308] ++ atoms).map .xInternAtom ++
      [.xGetSelectionOwner (some 42)])

/-- What the copy goes by. -/
def owned (targets : List Target) (data : CopyData) : CopyContext where
  x := ⟨3, 42, ⟨300, atomPrimary, 301, 302, 303, 304, 305, atomString, 306, 307, 308⟩⟩
  targets := ⟨301, text "TARGETS"⟩ :: targets
  selatom := 300
  data := data

def textTargets : List Target := [⟨305, text "UTF8_STRING"⟩]

def plain (bytes : List UInt8) : CopyData := ⟨bytes, [text "text/plain"]⟩

theorem acquireSelection_plain (bytes : List UInt8) :
    acquireSelection [] .regular (plain bytes) (owning []) =
      (.ok (some (owned textTargets (plain bytes))),
        (acquireSelection [] .regular (plain bytes) (owning [])).2) := Prod.ext rfl rfl

def asked : Process :=
  .fresh [.xWaitForEvent (some (.selectionRequest ⟨0, 50, 300, 305, 307⟩)),
    .xWaitForEvent (some .selectionClear)]

theorem serveSelection_correct_hi :
    Correct (owned textTargets (plain [0x68, 0x69])) false asked :=
  (serveSelection_correct_iff (acquireSelection_plain [0x68, 0x69]) (by decide) false asked).mpr
    (.inl (by decide))

/-- Of a payload of 4 GiB nothing is stored. -/
theorem serveSelection_cut :
    let data := plain (List.replicate (2 ^ 32) 0)
    (acquireSelection [] .regular data (owning [])).1 = .ok (some (owned textTargets data)) ∧
      0 ∉ protocolAtoms (owned textTargets data).x.atoms ∧
      ¬ Correct (owned textTargets data) false asked := by
  intro data
  refine ⟨congrArg Prod.fst (acquireSelection_plain _), by decide, fun h => ?_⟩
  have hpays : Pays (owned textTargets (plain [])) ⟨0, 50, 300, 305, 307⟩ := by decide
  have hmem : .selectionRequest ⟨0, 50, 300, 305, 307⟩ ∈
      processed (owned textTargets data) false asked.script := by
    rw [asked, Process.fresh, processed_cons]
    exact List.mem_cons_self
  have hlen := h.payload ⟨by decide, by decide⟩ hmem hpays
  exact absurd (List.length_replicate ▸ hlen) (lt_irrefl _)

end X11

end WlClip
