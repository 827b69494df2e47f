import WlClip.Client

/-!
# The message stream of `dispatch_until`

However the incoming bytes are cut into reads, the dispatcher gets the messages of the stream one
after another, and the receive buffer with the bytes still to come is the stream of the others.
`Unread` says so of a client between two dispatcher calls; `Handling` of one inside a call, whose
message is still in the buffer. `dispatchUntil_rule` carries any invariant of the deliveries over
a call of `dispatch_until`.
-/

open ScriptedProgram ScriptedProgram.Prog LittleEndian

namespace WlClip

def Message.delivery (m : Message) : Delivery := (m.objectId, m.opcode, m.payload)

def Dispatcher.Halts {σ : Type} (d : Dispatcher σ) (e : Halt) (cl : Client σ) : Prop :=
  ∃ obj op r cl₀, d.handle obj op r cl₀ = (.error e, cl)

namespace Client

variable {σ α : Type}

/-- Part of the state that no connection operation touches. -/
abbrev Local (σ : Type) := (UInt32 → ObjKind) × UInt32 × σ

def locals (cl : Client σ) : Local σ := (cl.objects, cl.nextId, cl.st)

/-- What the connection operations between two deliveries do. -/
def Quiet (cl cl' : Client σ) : Prop :=
  Connection.Quiet cl.toConnection cl'.toConnection ∧ cl'.locals = cl.locals

theorem Quiet.st {cl cl' : Client σ} (h : Quiet cl cl') : cl'.st = cl.st :=
  congrArg (fun l : Local σ => l.2.2) h.2

theorem onConn_within {R : Connection → Connection → Prop} {p : Prog Halt Connection α}
    (h : Within R p) : Within (fun cl cl' : Client σ => R cl.toConnection cl'.toConnection ∧
      cl'.locals = cl.locals) (onConn p) :=
  h.zoom fun _ _ hR => ⟨hR, rfl⟩

theorem onConn_triple {P : Connection → Prop} {p : Prog Halt Connection α}
    {Q : α → Connection → Prop} {H : Halt → Connection → Prop} (h : Triple P p Q H) :
    Triple (fun cl : Client σ => P cl.toConnection) (onConn p) (fun a cl => Q a cl.toConnection)
      (fun e cl => H e cl.toConnection) :=
  Triple.zoom fun _ hc => h.pre fun _ hq => hq ▸ hc

/-! ## One delivery -/

/-- Hands the message at the head of the buffer to the dispatcher and consumes it. -/
def deliver (d : Dispatcher σ) (m : Message) : Prog Halt (Client σ) Unit := do
  record (.dispatch m.objectId m.opcode m.payload)
  d.handle m.objectId m.opcode (.new m.objectId m.opcode m.payload)
  onConn (Connection.inConsume m.size)

theorem headMessage_fields {buf : List UInt8} {m : Message} (h : headMessage buf = some m) :
    peekMessageSize buf = m.size ∧ loadU32 buf = m.objectId ∧
      opcodeField (loadU32 (buf.drop 4)) = m.opcode ∧
      (buf.take (peekMessageSize buf)).drop 8 = m.payload := by
  obtain ⟨rest, rfl⟩ := Message.framing.first_prefix buf m h
  change peekMessageSize (m.bytes ++ rest) = _ ∧ loadU32 (m.bytes ++ rest) = _ ∧
    opcodeField (loadU32 ((m.bytes ++ rest).drop 4)) = _ ∧
    ((m.bytes ++ rest).take (peekMessageSize (m.bytes ++ rest))).drop 8 = _
  simp only [m.peek_bytes, m.loadU32_bytes, m.loadU32_drop_bytes, m.opcodeField_opLen,
    m.payload_bytes, and_self]

theorem scanRound_none (predicate : σ → Bool) (d : Dispatcher σ) (consumedAny : Bool)
    {cl : Client σ} (h : headMessage cl.inBuf = none) :
    scanRound predicate d consumedAny cl =
      (.ok (.inr (if consumedAny then .consumed else .idle)), cl) := by
  simp only [scanRound, bind_apply, Prog.read_apply, headMessage_eq_none.mp h, if_true,
    pure_apply]

theorem scanRound_some (predicate : σ → Bool) (d : Dispatcher σ) (consumedAny : Bool)
    {cl : Client σ} {m : Message} (h : headMessage cl.inBuf = some m) :
    scanRound predicate d consumedAny cl = match deliver d m cl with
      | (.ok _, cl') => (.ok (if predicate cl'.st then .inr .stopped else .inl true), cl')
      | (.error e, cl') => (.error e, cl') := by
  obtain ⟨hsize, hobj, hop, hpayload⟩ := headMessage_fields h
  have hne : ¬ m.size = 0 := Nat.succ_ne_zero _
  rw [hsize] at hpayload
  simp only [scanRound, deliver, bind_apply, Prog.read_apply, hsize, hobj, hop, hpayload,
    if_neg hne]
  rcases record (.dispatch m.objectId m.opcode m.payload) cl with ⟨e | u, cl₁⟩
  · rfl
  · dsimp only
    rcases d.handle m.objectId m.opcode _ cl₁ with ⟨e | u, cl₂⟩
    · rfl
    · dsimp only
      rcases onConn (Connection.inConsume m.size) cl₂ with ⟨e | u, cl₃⟩
      · rfl
      · dsimp only
        split_ifs <;> rfl

/-- The state in which the dispatcher is called on the message. -/
def logged (m : Message) (cl : Client σ) : Client σ :=
  { cl with trace := cl.trace ++ [.dispatch m.objectId m.opcode m.payload] }

def consumed (n : ℕ) (cl : Client σ) : Client σ := { cl with inBuf := cl.inBuf.drop n }

theorem deliver_eq (d : Dispatcher σ) (m : Message) (cl : Client σ) :
    deliver d m cl =
      match d.handle m.objectId m.opcode (.new m.objectId m.opcode m.payload) (logged m cl) with
      | (.ok _, cl') => (.ok (), consumed m.size cl')
      | (.error e, cl') => (.error e, cl') := by
  change (d.handle m.objectId m.opcode _ >>= fun _ => onConn (Connection.inConsume m.size))
    (logged m cl) = _
  rw [bind_apply]
  rcases d.handle m.objectId m.opcode (.new m.objectId m.opcode m.payload) (logged m cl)
    with ⟨e | u, cl'⟩ <;> rfl

theorem deliver_ok {d : Dispatcher σ} {m : Message} {cl cl' : Client σ}
    (h : d.handle m.objectId m.opcode (.new m.objectId m.opcode m.payload) (logged m cl) =
      (.ok (), cl')) : deliver d m cl = (.ok (), consumed m.size cl') := by
  rw [deliver_eq, h]

theorem deliver_error {d : Dispatcher σ} {m : Message} {cl cl' : Client σ} {e : Halt}
    (h : d.handle m.objectId m.opcode (.new m.objectId m.opcode m.payload) (logged m cl) =
      (.error e, cl')) : deliver d m cl = (.error e, cl') := by
  rw [deliver_eq, h]

theorem dispatched_logged (m : Message) (cl : Client σ) :
    (logged m cl).dispatched = cl.dispatched ++ [m.delivery] := by
  simp [logged, Process.dispatched, Process.observe, Action.dispatched, Message.delivery]

/-- What holds after the dispatcher returns, consumed message or not, holds after a delivery. -/
theorem deliver_triple {d : Dispatcher σ} {m : Message} {P Q : Client σ → Prop}
    {H : Halt → Client σ → Prop}
    (h : Triple P (d.handle m.objectId m.opcode (.new m.objectId m.opcode m.payload))
      (fun _ cl => Q (consumed m.size cl)) H) :
    Triple (fun cl => P (logged m cl)) (deliver d m) (fun _ => Q) H := by
  intro cl hcl
  have hstep := h (logged m cl) hcl
  rw [deliver_eq]
  rcases hr : d.handle m.objectId m.opcode (.new m.objectId m.opcode m.payload) (logged m cl)
    with ⟨e | u, cl'⟩ <;> rw [hr] at hstep <;> exact hstep

/-- What a delivery that returns, and one that halts, leaves of the received stream. -/
theorem deliver_stream (d : Dispatcher σ) (m : Message) (cl₀ : Client σ) :
    Triple (fun cl => cl = cl₀) (deliver d m)
      (fun _ cl => cl.inBuf = cl₀.inBuf.drop m.size ∧ cl.pending = cl₀.pending ∧
        cl.dispatched = cl₀.dispatched ++ [m.delivery] ∧ cl.toProcess.size ≤ cl₀.toProcess.size)
      (fun e cl => cl.inBuf = cl₀.inBuf ∧ cl.pending = cl₀.pending ∧
        cl.dispatched = cl₀.dispatched ++ [m.delivery] ∧ d.Halts e cl) := by
  refine (deliver_triple (P := fun cl => cl = logged m cl₀) ?_).pre (fun cl h => h ▸ rfl)
  rintro _ rfl
  have hsteady := d.steady m.objectId m.opcode (.new m.objectId m.opcode m.payload) (logged m cl₀)
  rcases hr : d.handle m.objectId m.opcode (.new m.objectId m.opcode m.payload) (logged m cl₀)
    with ⟨e | u, cl⟩ <;> rw [hr] at hsteady
  · exact ⟨hsteady.inBuf, hsteady.logs.pending_eq,
      (hsteady.logs.observe_eq fun _ => Action.Unheard.dispatched).trans (dispatched_logged m cl₀),
      _, _, _, _, hr⟩
  · exact ⟨congrArg (List.drop m.size) hsteady.inBuf, hsteady.logs.pending_eq,
      (hsteady.logs.observe_eq fun _ => Action.Unheard.dispatched).trans (dispatched_logged m cl₀),
      hsteady.logs.size_le⟩

theorem deliver_size (d : Dispatcher σ) {m : Message} {cl cl' : Client σ}
    (h : headMessage cl.inBuf = some m) (hr : deliver d m cl = (.ok (), cl')) :
    cl'.inBuf.length < cl.inBuf.length ∧ cl'.toProcess.size ≤ cl.toProcess.size := by
  obtain ⟨hbuf, -, -, hle⟩ := (deliver_stream d m cl).ok hr rfl
  obtain ⟨hsize, -, -, -⟩ := headMessage_fields h
  have hne : peekMessageSize cl.inBuf ≠ 0 := hsize ▸ Nat.succ_ne_zero _
  obtain ⟨-, -, hlen⟩ := peek_ne_zero hne
  refine ⟨?_, hle⟩
  rw [hbuf, List.length_drop]
  omega

/-! ## Termination -/

theorem scanRound_shrinks (predicate : σ → Bool) (d : Dispatcher σ) :
    Shrinks (fun _ cl => cl.inBuf.length) (scanRound predicate d) := by
  intro b cl b' cl' h
  rcases hm : headMessage cl.inBuf with _ | m
  · rw [scanRound_none predicate d b hm] at h
    cases h
  · rw [scanRound_some predicate d b hm] at h
    rcases hr : deliver d m cl with ⟨e | u, cl₁⟩ <;> rw [hr] at h
    · cases h
    · dsimp only at h
      split_ifs at h
      · cases h
      · cases h
        exact (deliver_size d hm hr).1

/-- A scan makes nothing larger, and the client smaller if it consumed a message. -/
theorem scan_size (predicate : σ → Bool) (d : Dispatcher σ) (k : ℕ) :
    Triple (fun cl : Client σ => cl.size ≤ k) (scan predicate d)
      (fun r cl => cl.size ≤ k ∧ (r = .consumed → cl.size < k)) (fun _ _ => True) := by
  refine (Triple.loop (I := fun consumedAny cl => cl.size ≤ k ∧ (consumedAny = true → cl.size < k))
    ?_ (fun _ _ _ => trivial) false).pre fun cl hk => ⟨hk, by simp⟩
  rintro b cl ⟨hk, hb⟩
  rcases hm : headMessage cl.inBuf with _ | m
  · rw [scanRound_none predicate d b hm]
    refine ⟨hk, fun hc => hb ?_⟩
    cases b
    · cases hc
    · rfl
  · rw [scanRound_some predicate d b hm]
    rcases hr : deliver d m cl with ⟨e | u, cl'⟩
    · trivial
    · obtain ⟨hbuf, hproc⟩ := deliver_size d hm hr
      have hlt : cl'.size < k := by
        unfold size at hk ⊢
        omega
      dsimp only
      split_ifs
      · exact ⟨Nat.le_of_lt hlt, fun hc => by cases hc⟩
      · exact ⟨Nat.le_of_lt hlt, fun _ => hlt⟩

theorem size_le_of_keepsInput {cl cl' : Client σ}
    (h : Connection.KeepsInput cl.toConnection cl'.toConnection) : cl'.size ≤ cl.size := by
  have hle := h.logs.size_le
  unfold size
  rw [h.inBuf]
  omega

theorem receiveRound_size {cl cl' : Client σ} (h : receiveRound cl = (.ok (.inl ()), cl')) :
    cl'.size < cl.size := by
  obtain ⟨ready, cl₁, hw, h⟩ := bind_eq_ok h
  have hwait := (onConn_within (Connection.waitReadable_keepsInput (-1))).of_eq hw
  have hle := size_le_of_keepsInput hwait.1
  cases ready with
  | false => cases h
  | true =>
      obtain ⟨n, cl₂, hp, h⟩ := bind_eq_ok h
      split_ifs at h with hneg hzero
      · cases h
      · cases h
      · cases h
        have hpump : Connection.pump cl₁.toConnection = (.ok n, cl'.toConnection) := by
          simp only [onConn, Prog.zoom_apply, Prod.mk.injEq] at hp
          exact Prod.ext hp.1 (by rw [← hp.2])
        have hlt := Connection.pump_count hpump
        rw [if_pos (by omega)] at hlt
        unfold size at hle ⊢
        omega

theorem dispatchRound_shrinks (predicate : σ → Bool) (d : Dispatcher σ) :
    Shrinks (fun _ cl => cl.size) (dispatchRound predicate d) := by
  intro _ cl _ cl' h
  simp only [dispatchRound, bind_apply, Prog.read_apply] at h
  split_ifs at h with hpred
  · cases h
  · obtain ⟨ok, cl₁, hf, h⟩ := bind_eq_ok (p := onConn Connection.flush) h
    have hflush := (onConn_within Connection.flush_keepsInput).of_eq hf
    have hle := size_le_of_keepsInput hflush.1
    cases ok with
    | false => cases h
    | true =>
        obtain ⟨r, cl₂, hs, h⟩ := bind_eq_ok (p := scan predicate d) h
        have hscan := (scan_size predicate d cl.size).ok hs hle
        cases r with
        | stopped => cases h
        | consumed =>
            cases h
            exact hscan.2 rfl
        | idle => exact Nat.lt_of_lt_of_le (receiveRound_size h) hscan.1

/-! ## Two runs of the loop -/

/-- The connection operations of `dispatch_until` and the dispatcher do the same in related
states, which the predicate does not tell apart. -/
structure Tolerates (predicate : σ → Bool) (d : Dispatcher σ)
    (R : Client σ → Client σ → Prop) : Prop where
  inBuf : ∀ cl cl', R cl cl' → cl.inBuf = cl'.inBuf
  stop : ∀ cl cl', R cl cl' → predicate cl.st = predicate cl'.st
  record : ∀ a, Alike R (record a)
  handle : ∀ obj op r, Alike R (d.handle obj op r)
  inConsume : ∀ n, Alike R (onConn (Connection.inConsume n))
  flush : Alike R (onConn Connection.flush)
  waitReadable : Alike R (onConn (Connection.waitReadable (-1)))
  pump : Alike R (onConn Connection.pump)

section Two

variable {predicate : σ → Bool} {d : Dispatcher σ} {R : Client σ → Client σ → Prop}

theorem scan_alike (h : Tolerates predicate d R) : Alike R (scan predicate d) := by
  refine Alike.loop (scanRound_shrinks predicate d) (fun consumedAny => ?_) false
  apply Alike.bind (Alike.read h.inBuf)
  intro buf
  apply Alike.ite (Alike.pure _)
  apply Alike.bind (h.record _)
  intro _
  apply Alike.bind (h.handle _ _ _)
  intro _
  apply Alike.bind (h.inConsume _)
  intro _
  apply Alike.read_bind
  · intro cl cl' hcl
    simp only [h.stop cl cl' hcl]
  · intro st
    exact Alike.ite (Alike.pure _) (Alike.pure _)

theorem receiveRound_alike (h : Tolerates predicate d R) : Alike R receiveRound := by
  apply Alike.bind h.waitReadable
  intro ready
  apply Alike.ite _ (Alike.pure _)
  apply Alike.bind h.pump
  intro n
  exact Alike.ite (Alike.pure _) (Alike.ite (Alike.pure _) (Alike.pure _))

theorem dispatchUntil_alike (h : Tolerates predicate d R) :
    Alike R (dispatchUntil predicate d) := by
  refine Alike.loop (dispatchRound_shrinks predicate d) (fun _ => ?_) ()
  apply Alike.read_bind
  · intro cl cl' hcl
    simp only [h.stop cl cl' hcl]
  intro st
  apply Alike.ite (Alike.pure _)
  apply Alike.bind h.flush
  intro ok
  apply Alike.ite _ (Alike.pure _)
  apply Alike.bind (scan_alike h)
  rintro (_ | _ | _)
  · exact Alike.pure _
  · exact Alike.pure _
  · exact receiveRound_alike h

end Two

/-! ## What has been delivered and what has not -/

open Message (framing)

/-- Where a count of deliveries begins: what was delivered before, and all that was not. -/
structure Origin where
  log : List Delivery
  bytes : List UInt8

def origin (cl : Client σ) : Origin := ⟨cl.dispatched, cl.inBuf ++ cl.pending⟩

/-- Since the origin the messages `ds` were delivered; the rest is received or to come. -/
structure Unread (o : Origin) (ds : List Message) (cl : Client σ) : Prop where
  dispatched : cl.dispatched = o.log ++ ds.map Message.delivery
  stream : framing.stream ds ++ (cl.inBuf ++ cl.pending) = o.bytes

/-- As `Unread`, but the dispatcher is at work on `m`, which is still in the buffer. -/
structure Handling (o : Origin) (ds : List Message) (m : Message) (cl : Client σ) : Prop where
  dispatched : cl.dispatched = o.log ++ (ds ++ [m]).map Message.delivery
  stream : framing.stream ds ++ (cl.inBuf ++ cl.pending) = o.bytes
  head : headMessage cl.inBuf = some m

variable {o : Origin} {log : List Delivery} {msgs ds : List Message} {m : Message} {cl cl' : Client σ}

theorem unread_origin (cl : Client σ) : Unread cl.origin [] cl :=
  ⟨(List.append_nil _).symm, rfl⟩

theorem Unread.rest (h : Unread ⟨log, framing.stream msgs⟩ ds cl) :
    ∃ rest, msgs = ds ++ rest ∧ cl.inBuf ++ cl.pending = framing.stream rest :=
  framing.stream_append_eq h.stream

theorem Handling.rest (h : Handling ⟨log, framing.stream msgs⟩ ds m cl) :
    ∃ rest, msgs = ds ++ m :: rest ∧ cl.inBuf ++ cl.pending = framing.stream (m :: rest) :=
  framing.stream_first h.stream h.head

theorem Unread.quiet (h : Unread o ds cl) (hq : Quiet cl cl') : Unread o ds cl' :=
  ⟨hq.1.dispatched.trans h.dispatched, hq.1.bytes ▸ h.stream⟩

/-- A delivery takes one message off what is unread. -/
theorem deliver_unread (d : Dispatcher σ) (m : Message) :
    Triple (fun cl => Unread o ds cl ∧ headMessage cl.inBuf = some m) (deliver d m)
      (fun _ cl => Unread o (ds ++ [m]) cl)
      (fun e cl => Handling o ds m cl ∧ d.Halts e cl) := by
  rintro cl ⟨h, hm⟩
  obtain ⟨hsize, -, -, -⟩ := headMessage_fields hm
  have hbytes : m.bytes = cl.inBuf.take m.size := by
    rw [← hsize]
    exact headMessage_bytes_eq hm
  refine (deliver_stream d m cl).conseq (fun _ h => h) ?_ ?_ cl rfl
  · rintro _ cl' ⟨hbuf, hpending, hlog, -⟩
    constructor
    · rw [hlog, h.dispatched, List.map_append, List.map_singleton, List.append_assoc]
    · have hone : framing.stream [m] = cl.inBuf.take m.size := by
        rw [Framing.stream_cons, Framing.stream_nil, List.append_nil]
        exact hbytes
      rw [Framing.stream_append, hone, hbuf, hpending, List.append_assoc, ← List.append_assoc _ _
        cl.pending, List.take_append_drop]
      exact h.stream
  · rintro e cl' ⟨hbuf, hpending, hlog, hhalt⟩
    refine ⟨⟨?_, ?_, ?_⟩, hhalt⟩
    · rw [hlog, h.dispatched, List.map_append, List.map_singleton, List.append_assoc]
    · rw [hbuf, hpending]
      exact h.stream
    · rw [hbuf]
      exact hm

/-! ## One call of `dispatch_until` -/

def Flushed (cl : Client σ) : Prop := cl.toConnection.Flushed

/-- How a call of `dispatch_until` may end: by its predicate, by a failed flush, or with every
complete message delivered. -/
def Ended (predicate : σ → Bool) (ok : Bool) (cl : Client σ) : Prop :=
  if ok then predicate cl.st = true else headMessage cl.inBuf = none ∨ ¬ Flushed cl

/-- Where a call can halt outside the dispatcher: in a flush, or with nothing to deliver. -/
def Starved (e : Halt) (cl : Client σ) : Prop :=
  (∃ fd bytes fds, e = .waiting (.sendmsg fd bytes fds)) ∨ headMessage cl.inBuf = none

/-- A fact `J` about the messages delivered so far and the client, which connection operations
leave alone and a delivery carries over; where the dispatcher halts, `K` holds. -/
structure Invariant (predicate : σ → Bool) (d : Dispatcher σ) (o : Origin)
    (J : List Message → Client σ → Prop) (K : Halt → Client σ → Prop) : Prop where
  quiet : ∀ ds cl cl', J ds cl → Quiet cl cl' → J ds cl'
  deliver : ∀ ds m, Triple
    (fun cl => J ds cl ∧ Unread o ds cl ∧ headMessage cl.inBuf = some m ∧
      predicate cl.st = false)
    (deliver d m) (fun _ cl => J (ds ++ [m]) cl) K

def Along (o : Origin) (J : List Message → Client σ → Prop) (cl : Client σ) : Prop :=
  ∃ ds, J ds cl ∧ Unread o ds cl

section Rule

variable {predicate : σ → Bool} {d : Dispatcher σ} {J : List Message → Client σ → Prop}
  {K : Halt → Client σ → Prop}

theorem Along.quiet (hJ : Invariant predicate d o J K) (h : Along o J cl)
    (hq : Quiet cl cl') : Along o J cl' := by
  obtain ⟨ds, h, hunread⟩ := h
  exact ⟨ds, hJ.quiet ds cl cl' h hq, hunread.quiet hq⟩

theorem deliver_along (hJ : Invariant predicate d o J K) (ds : List Message)
    (m : Message) :
    Triple (fun cl => J ds cl ∧ Unread o ds cl ∧ headMessage cl.inBuf = some m ∧
      predicate cl.st = false) (deliver d m) (fun _ cl => Along o J cl) K := by
  rintro cl ⟨h, hunread, hm, hpred⟩
  have hkeep := hJ.deliver ds m cl ⟨h, hunread, hm, hpred⟩
  have hnext := deliver_unread d m cl ⟨hunread, hm⟩
  rcases hr : deliver d m cl with ⟨e | u, cl'⟩ <;> rw [hr] at hkeep hnext
  · exact hkeep
  · exact ⟨_, hkeep, hnext⟩

def ScanEnded (predicate : σ → Bool) (r : Scan) (cl : Client σ) : Prop :=
  match r with
  | .stopped => predicate cl.st = true
  | _ => predicate cl.st = false ∧ headMessage cl.inBuf = none

theorem scanRound_triple (hJ : Invariant predicate d o J K) (consumedAny : Bool) :
    Triple (fun cl => Along o J cl ∧ predicate cl.st = false)
      (scanRound predicate d consumedAny)
      (fun r cl => Along o J cl ∧ match r with
        | .inl _ => predicate cl.st = false
        | .inr r => ScanEnded predicate r cl)
      K := by
  rintro cl ⟨⟨ds, h, hunread⟩, hpred⟩
  rcases hm : headMessage cl.inBuf with _ | m
  · rw [scanRound_none predicate d consumedAny hm]
    cases consumedAny <;> exact ⟨⟨ds, h, hunread⟩, hpred, hm⟩
  · have hstep := deliver_along hJ ds m cl ⟨h, hunread, hm, hpred⟩
    rw [scanRound_some predicate d consumedAny hm]
    rcases hr : deliver d m cl with ⟨e | u, cl'⟩ <;> rw [hr] at hstep
    · exact hstep
    · dsimp only
      split_ifs with hstop
      · exact ⟨hstep, hstop⟩
      · exact ⟨hstep, Bool.eq_false_iff.mpr hstop⟩

theorem scan_triple (hJ : Invariant predicate d o J K) :
    Triple (fun cl => Along o J cl ∧ predicate cl.st = false) (scan predicate d)
      (fun r cl => Along o J cl ∧ ScanEnded predicate r cl) K := by
  refine Triple.loop_total (I := fun _ cl => Along o J cl ∧ predicate cl.st = false)
    (scanRound_shrinks predicate d) (fun b => ?_) false
  refine (scanRound_triple hJ b).conseq (fun _ h => h) ?_ (fun _ _ h => h)
  rintro (b' | r) cl h <;> exact h

theorem quiet_triple {P : Client σ → Prop} (hP : ∀ cl cl', P cl → Quiet cl cl' → P cl')
    {p : Prog Halt Connection α} (h : Within Connection.Quiet p) : Keeps P (onConn p) :=
  (onConn_within h).keeps fun cl cl' hq hcl => hP cl cl' hcl hq

theorem flush_triple (hJ : Invariant predicate d o J K) :
    Triple (fun cl => Along o J cl ∧ predicate cl.st = false) (onConn Connection.flush)
      (fun ok cl => (Along o J cl ∧ predicate cl.st = false) ∧ (ok = true ↔ Flushed cl))
      (fun e cl => Along o J cl ∧ Starved e cl) := by
  have hkeeps := quiet_triple (P := fun cl => Along o J cl ∧ predicate cl.st = false)
    (fun cl cl' h hq => ⟨h.1.quiet hJ hq, by rw [hq.st]; exact h.2⟩)
    (Connection.flush_keepsInput.mono fun _ _ h => h.quiet)
  have hends := onConn_triple (σ := σ) Connection.flush_triple
  exact Triple.intro (fun _ _ _ hs hp => ⟨hkeeps.ok hp hs, hends.ok hp trivial⟩)
    (fun _ _ _ hs hp => ⟨(hkeeps.error hp hs).1, .inl (hends.error hp trivial)⟩)

theorem waitReadable_keeps (hJ : Invariant predicate d o J K) (timeout : Int) :
    Keeps (fun cl : Client σ => Along o J cl ∧ headMessage cl.inBuf = none)
      (onConn (Connection.waitReadable timeout)) := by
  refine (onConn_within (Connection.waitReadable_keepsInput timeout)).keeps ?_
  rintro cl cl' ⟨hkeeps, hlocals⟩ ⟨h, hm⟩
  exact ⟨h.quiet hJ ⟨hkeeps.quiet, hlocals⟩, by rw [hkeeps.inBuf]; exact hm⟩

theorem pump_triple (hJ : Invariant predicate d o J K) :
    Triple (fun cl : Client σ => Along o J cl ∧ headMessage cl.inBuf = none)
      (onConn Connection.pump)
      (fun n cl => Along o J cl ∧ (n ≤ 0 → headMessage cl.inBuf = none))
      (fun _ cl => Along o J cl ∧ headMessage cl.inBuf = none) := by
  rintro cl ⟨h, hm⟩
  have hquiet := onConn_within (σ := σ) Connection.pump_quiet cl
  rcases hp : Connection.pump cl.toConnection with ⟨e | n, c⟩ <;>
    simp only [onConn, Prog.zoom_apply, hp] at hquiet ⊢
  · obtain ⟨-, rfl⟩ := Connection.pump_error hp
    exact ⟨h.quiet hJ hquiet, hm⟩
  · refine ⟨h.quiet hJ hquiet, fun hn => ?_⟩
    have hcount := Connection.pump_count hp
    rw [if_neg (by omega)] at hcount
    rw [hcount]
    exact hm

theorem receiveRound_triple (hJ : Invariant predicate d o J K) :
    Triple (fun cl : Client σ => Along o J cl ∧ headMessage cl.inBuf = none) receiveRound
      (fun r cl => Along o J cl ∧ ∀ ok, r = .inr ok → ok = false ∧ headMessage cl.inBuf = none)
      (fun _ cl => Along o J cl ∧ headMessage cl.inBuf = none) := by
  refine Triple.bind (waitReadable_keeps hJ (-1)) fun ready => Triple.ite (fun _ => ?_) fun _ => ?_
  · refine Triple.bind (pump_triple hJ) fun n => Triple.ite (fun hneg => ?_) fun _ =>
      Triple.ite (fun hzero => ?_) fun _ => ?_
    · refine Triple.pure _ fun cl h => ⟨h.1, fun ok hok => ?_⟩
      cases hok
      exact ⟨rfl, h.2 (Int.le_of_lt hneg)⟩
    · refine Triple.pure _ fun cl h => ⟨h.1, fun ok hok => ?_⟩
      cases hok
      exact ⟨rfl, h.2 (Int.le_of_eq hzero)⟩
    · exact Triple.pure _ fun cl h => ⟨h.1, fun ok hok => by cases hok⟩
  · refine Triple.pure _ fun cl h => ⟨h.1, fun ok hok => ?_⟩
    cases hok
    exact ⟨rfl, h.2⟩

theorem scanned_triple (hJ : Invariant predicate d o J K) (r : Scan) :
    Triple (fun cl => Along o J cl ∧ ScanEnded predicate r cl)
      (match r with
        | .stopped => pure (.inr true)
        | .consumed => pure (.inl ())
        | .idle => receiveRound)
      (fun r cl => Along o J cl ∧ ∀ ok, r = .inr ok → Ended predicate ok cl)
      (fun e cl => K e cl ∨ Along o J cl ∧ Starved e cl) := by
  cases r with
  | stopped =>
      refine Triple.pure _ fun cl h => ⟨h.1, fun ok hok => ?_⟩
      cases hok
      exact h.2
  | consumed => exact Triple.pure _ fun cl h => ⟨h.1, fun ok hok => by cases hok⟩
  | idle =>
      refine (receiveRound_triple hJ).conseq (fun cl h => ⟨h.1, h.2.2⟩) ?_ ?_
      · rintro r cl ⟨h, hr⟩
        refine ⟨h, fun ok hok => ?_⟩
        obtain ⟨rfl, hhead⟩ := hr ok hok
        exact .inl hhead
      · rintro e cl ⟨h, hhead⟩
        exact .inr ⟨h, .inr hhead⟩

theorem dispatchRound_triple (hJ : Invariant predicate d o J K) :
    Triple (Along o J) (dispatchRound predicate d ())
      (fun r cl => Along o J cl ∧ ∀ ok, r = .inr ok → Ended predicate ok cl)
      (fun e cl => K e cl ∨ Along o J cl ∧ Starved e cl) := by
  refine Triple.bind (Q := fun st cl => Along o J cl ∧ cl.st = st)
    (Triple.read _ fun cl h => ⟨h, rfl⟩) fun st => Triple.ite (fun hpred => ?_) fun hpred => ?_
  · refine Triple.pure _ fun cl h => ⟨h.1, fun ok hok => ?_⟩
    cases hok
    exact (congrArg predicate h.2).trans hpred
  · refine Triple.bind ((flush_triple hJ).conseq
      (fun cl h => ⟨h.1, (congrArg predicate h.2).trans (Bool.eq_false_iff.mpr hpred)⟩)
      (fun _ _ h => h) fun e cl h => .inr h) fun ok => Triple.ite (fun hok => ?_) fun hok => ?_
    · exact Triple.bind ((scan_triple hJ).conseq (fun cl h => h.1) (fun _ _ h => h)
        fun _ _ h => .inl h) (scanned_triple hJ)
    · refine Triple.pure _ fun cl h => ⟨h.1.1, fun ok' hok' => ?_⟩
      cases hok'
      exact .inr fun hflushed => hok (h.2.mpr hflushed)

/-- The rule for a call of `dispatch_until`: an invariant of the deliveries holds at its end. -/
theorem dispatchUntil_rule (hJ : Invariant predicate d o J K) :
    Triple (Along o J) (dispatchUntil predicate d)
      (fun ok cl => Along o J cl ∧ Ended predicate ok cl)
      (fun e cl => K e cl ∨ Along o J cl ∧ Starved e cl) := by
  refine Triple.loop_total (I := fun _ => Along o J) (dispatchRound_shrinks predicate d) ?_ ()
  rintro ⟨⟩
  refine (dispatchRound_triple hJ).conseq (fun _ h => h) ?_ (fun _ _ h => h)
  rintro (_ | ok) cl ⟨h, hended⟩
  · exact h
  · exact ⟨h, hended ok rfl⟩

/-- The rule for a fact that does not depend on what was delivered; a message comes only while the
predicate does not hold. -/
theorem dispatchUntil_guarded {I : Client σ → Prop} (hquiet : ∀ cl cl', I cl → Quiet cl cl' → I cl')
    (hdeliver : ∀ m, Triple (fun cl => I cl ∧ predicate cl.st = false) (deliver d m)
      (fun _ => I) (fun _ => I)) :
    Triple I (dispatchUntil predicate d) (fun ok cl => I cl ∧ Ended predicate ok cl)
      (fun _ => I) := by
  intro cl h
  have hJ : Invariant predicate d cl.origin (fun _ => I) (fun _ => I) :=
    ⟨fun _ => hquiet, fun _ m => (hdeliver m).pre fun _ h => ⟨h.1, h.2.2.2⟩⟩
  refine (dispatchUntil_rule hJ).conseq (fun _ h => h) ?_ ?_ cl ⟨[], h, unread_origin cl⟩
  · rintro ok cl' ⟨⟨_, h, -⟩, hended⟩
    exact ⟨h, hended⟩
  · rintro e cl' (h | ⟨⟨_, h, -⟩, -⟩) <;> exact h

theorem dispatchUntil_keeps {I : Client σ → Prop} (hquiet : ∀ cl cl', I cl → Quiet cl cl' → I cl')
    (hdeliver : ∀ m, Keeps I (deliver d m)) :
    Triple I (dispatchUntil predicate d) (fun ok cl => I cl ∧ Ended predicate ok cl)
      (fun _ => I) :=
  dispatchUntil_guarded hquiet fun m => (hdeliver m).pre fun _ h => h.1

end Rule

/-! ## Successive calls -/

/-- Successive calls of `dispatch_until` on one connection, whatever each of them returns. -/
def dispatchCalls (d : Dispatcher σ) : List (σ → Bool) → Prog Halt (Client σ) (List Bool)
  | [] => return []
  | predicate :: rest => do
    let ok ← dispatchUntil predicate d
    let oks ← dispatchCalls d rest
    return ok :: oks

/-- At least the messages `base` were delivered. -/
def Past (o : Origin) (base : List Message) : Client σ → Prop :=
  Along o fun ds _ => base <+: ds

/-- The dispatcher has halted on a message after `base`. -/
def HaltedAfter (o : Origin) (base : List Message) (d : Dispatcher σ) (e : Halt)
    (cl : Client σ) : Prop :=
  ∃ ds m, base <+: ds ∧ Handling o ds m cl ∧ d.Halts e cl

theorem past_invariant (o : Origin) (predicate : σ → Bool) (d : Dispatcher σ)
    (base : List Message) :
    Invariant predicate d o (fun ds _ => base <+: ds) (HaltedAfter o base d) where
  quiet _ _ _ h _ := h
  deliver ds m := by
    rintro cl ⟨h, hunread, hm, -⟩
    have hstep := deliver_unread d m cl ⟨hunread, hm⟩
    rcases hr : deliver d m cl with ⟨e | u, cl'⟩ <;> rw [hr] at hstep
    · exact ⟨ds, m, h, hstep⟩
    · exact h.trans (List.prefix_append _ _)

theorem dispatchCalls_triple (o : Origin) (base : List Message) (d : Dispatcher σ)
    (predicates : List (σ → Bool)) :
    Triple (Past o base) (dispatchCalls d predicates) (fun _ => Past o base)
      (fun e cl => HaltedAfter o base d e cl ∨ Past o base cl) := by
  induction predicates with
  | nil => exact Triple.pure _ fun _ h => h
  | cons predicate rest ih =>
      refine Triple.bind ((dispatchUntil_rule (past_invariant o predicate d base)).conseq
        (fun _ h => h) (fun _ _ h => h.1) (fun _ _ h => h.imp_right And.left)) fun ok => ?_
      exact Triple.bind ih fun oks => Triple.pure _ fun _ h => h

/-- A message `m` that is complete in the buffer while the predicate does not hold is delivered
before anything else is. -/
theorem next_invariant (o : Origin) (predicate : σ → Bool) (d : Dispatcher σ)
    (base : List Message) (m : Message) :
    Invariant predicate d o
      (fun ds cl => ds = base ∧ headMessage cl.inBuf = some m ∧ predicate cl.st = false ∨
        base ++ [m] <+: ds)
      (fun e cl => (Handling o base m cl ∧ d.Halts e cl) ∨
        HaltedAfter o (base ++ [m]) d e cl) where
  quiet ds cl cl' h hq := by
    refine h.imp_left fun ⟨hds, hm, hpred⟩ => ⟨hds, ?_, by rw [hq.st]; exact hpred⟩
    obtain ⟨t, ht⟩ := hq.1.grows
    rw [← ht]
    exact framing.first_append hm t
  deliver ds m' := by
    rintro cl ⟨h, hunread, hm', -⟩
    have hstep := deliver_unread d m' cl ⟨hunread, hm'⟩
    rcases hr : deliver d m' cl with ⟨e | u, cl'⟩ <;> rw [hr] at hstep
    · rcases h with ⟨rfl, hm, -⟩ | h
      · obtain rfl := Option.some.inj (hm.symm.trans hm')
        exact .inl hstep
      · exact .inr ⟨ds, m', h, hstep⟩
    · rcases h with ⟨rfl, hm, -⟩ | h
      · obtain rfl := Option.some.inj (hm.symm.trans hm')
        exact .inr List.prefix_rfl
      · exact .inr (h.trans (List.prefix_append _ _))

/-- What a further call does about a message that is complete in the buffer: it is delivered,
unless the flush before it fails or blocks. -/
def NextDelivers (d : Dispatcher σ) (msgs ds : List Message) (cl : Client σ) : Prop :=
  ∀ predicate m, headMessage cl.inBuf = some m → predicate cl.st = false →
    Triple (fun cl' => cl' = cl) (dispatchUntil predicate d)
      (fun ok cl' => Ended predicate ok cl' ∧
        (Past ⟨[], framing.stream msgs⟩ (ds ++ [m]) cl' ∨ ¬ Flushed cl'))
      (fun e cl' => Past ⟨[], framing.stream msgs⟩ (ds ++ [m]) cl' ∨
        HaltedAfter ⟨[], framing.stream msgs⟩ ds d e cl' ∨
        ∃ fd bytes fds, e = .waiting (.sendmsg fd bytes fds))

theorem nextDelivers (d : Dispatcher σ) (h : Unread ⟨[], framing.stream msgs⟩ ds cl) :
    NextDelivers d msgs ds cl := by
  intro predicate m hm hpred
  refine (dispatchUntil_rule (next_invariant ⟨[], framing.stream msgs⟩ predicate d ds m)).conseq
    ?_ ?_ ?_
  · rintro _ rfl
    exact ⟨ds, .inl ⟨rfl, hm, hpred⟩, h⟩
  · rintro ok cl' ⟨⟨ds', ⟨-, hm', hpred'⟩ | hbase, hunread⟩, hended⟩
    · refine ⟨hended, .inr ?_⟩
      cases ok with
      | false =>
          refine hended.resolve_left fun hnone => ?_
          rw [hnone] at hm'
          cases hm'
      | true => exact absurd hended (Bool.eq_false_iff.mp hpred')
    · exact ⟨hended, .inl ⟨ds', hbase, hunread⟩⟩
  · rintro e cl' ((⟨hhandling, hhalt⟩ | ⟨ds', m', hbase, hhandling⟩) |
      ⟨⟨ds', ⟨-, hm', -⟩ | hbase, hunread⟩, hstarved⟩)
    · exact .inr (.inl ⟨ds, m, List.prefix_rfl, hhandling, hhalt⟩)
    · exact .inr (.inl ⟨ds', m', (List.prefix_append _ _).trans hbase, hhandling⟩)
    · refine .inr (.inr (hstarved.resolve_right fun hnone => ?_))
      rw [hnone] at hm'
      cases hm'
    · exact .inl ⟨ds', hbase, hunread⟩

/-- Successive calls hand the dispatcher a prefix of the messages, and what they received beyond
it is in the buffer for the next call. -/
theorem dispatchCalls_stream (d : Dispatcher σ) (msgs : List Message)
    (predicates : List (σ → Bool)) :
    Triple
      (fun cl => cl.inBuf = [] ∧ cl.dispatched = [] ∧ cl.pending = framing.stream msgs)
      (dispatchCalls d predicates)
      (fun _ cl => ∃ ds rest, msgs = ds ++ rest ∧ cl.dispatched = ds.map Message.delivery ∧
        cl.inBuf ++ cl.pending = framing.stream rest ∧ NextDelivers d msgs ds cl)
      (fun e cl => ∃ ds rest, msgs = ds ++ rest ∧ cl.inBuf ++ cl.pending = framing.stream rest ∧
        (cl.dispatched = ds.map Message.delivery ∨
          ∃ m, rest.head? = some m ∧ cl.dispatched = (ds ++ [m]).map Message.delivery ∧
            d.Halts e cl)) := by
  refine (dispatchCalls_triple ⟨[], framing.stream msgs⟩ [] d predicates).conseq ?_ ?_ ?_
  · rintro cl ⟨hbuf, hlog, hstream⟩
    exact ⟨[], List.prefix_rfl, hlog, by rw [hbuf, hstream]; rfl⟩
  · rintro _ cl ⟨ds, -, h⟩
    obtain ⟨rest, hmsgs, hrest⟩ := h.rest
    exact ⟨ds, rest, hmsgs, h.dispatched, hrest, nextDelivers d h⟩
  · rintro e cl (⟨ds, m, -, h, hhalt⟩ | ⟨ds, -, h⟩)
    · obtain ⟨rest, hmsgs, hrest⟩ := h.rest
      exact ⟨ds, m :: rest, hmsgs, hrest, .inr ⟨m, rfl, h.dispatched, hhalt⟩⟩
    · obtain ⟨rest, hmsgs, hrest⟩ := h.rest
      exact ⟨ds, rest, hmsgs, hrest, .inl h.dispatched⟩

/-- Counts the messages. -/
def counting : Dispatcher ℕ where
  handle _ _ _ := setState (· + 1)
  steady _ _ _ := Within.update fun _ => .of_toConnection rfl

def threeMessages : List Message :=
  [⟨3, 0, [], Message.fits_nil⟩, ⟨3, 1, [], Message.fits_nil⟩, ⟨4, 0, [], Message.fits_nil⟩]

/-- The first read gives two messages and a part of the third. -/
def threeComing : Client ℕ :=
  .new (.fresh [.poll (.ok (.ready true)), .recvmsg (.ok ((framing.stream threeMessages).take 20, [])),
    .poll (.ok (.ready true)), .recvmsg (.ok ((framing.stream threeMessages).drop 20, []))]) 0

/-- The first call stops at the first message; the second one hands over the rest. -/
theorem dispatchCalls_counting : ∃ cl,
    dispatchCalls counting [fun n => 1 ≤ n, fun n => 3 ≤ n] threeComing = (.ok [true, true], cl) ∧
    cl.st = 3 ∧ ∃ ds rest, threeMessages = ds ++ rest ∧ cl.dispatched = ds.map Message.delivery ∧
      cl.inBuf ++ cl.pending = framing.stream rest ∧ NextDelivers counting threeMessages ds cl := by
  have hresult : (dispatchCalls counting [fun n => 1 ≤ n, fun n => 3 ≤ n] threeComing).1 =
      .ok [true, true] := by decide +kernel
  have hcount : (dispatchCalls counting [fun n => 1 ≤ n, fun n => 3 ≤ n] threeComing).2.st = 3 := by
    decide +kernel
  rcases hrun : dispatchCalls counting [fun n => 1 ≤ n, fun n => 3 ≤ n] threeComing with ⟨r, cl⟩
  rw [hrun] at hresult hcount
  obtain rfl : r = .ok [true, true] := hresult
  exact ⟨cl, rfl, hcount, (dispatchCalls_stream counting threeMessages _).ok hrun (by decide +kernel)⟩

end Client

end WlClip
