import WlClip.HandcraftedSteps

/-!
# Asking for a type that was offered

A type that an event has offered fits a request, whatever the length of the event: the padding that
the reader insists on leaves room for the padding that the writer adds. So a paste can ask for any
type that it lists.
-/

open ScriptedProgram ScriptedProgram.Prog LittleEndian

namespace WlClip

/-- The request for the payload as this type has a size that its length field holds, and the type is
read back from it. -/
structure Requestable (mime : Text) : Prop where
  size : ∀ offer, ((Writer.new offer Zdco.kReqReceive).str mime).finalize.length < 65536
  field : ∀ offer, lengthField (loadU32 (((Writer.new offer Zdco.kReqReceive).str
    mime).finalize.drop 4)) = ((Writer.new offer Zdco.kReqReceive).str mime).finalize.length
  readBack : ∀ offer, (Reader.new offer Zdco.kReqReceive
    (((Writer.new offer Zdco.kReqReceive).str mime).finalize.drop 8)).str.1 = mime

/-! ## The request -/

theorem fits_receive {mime : Text} (h : pad4 (mime.length + 1) + 12 < 65536) :
    (Request.receive mime).Fits := by
  change ((Arg.str mime).bytes ++ []).length + 8 < 65536
  rw [List.append_nil, length_str_bytes]
  omega

theorem requestable_of_fits {mime : Text} (h : (Request.receive mime).Fits) : Requestable mime := by
  have hbytes : ∀ offer, ((Writer.new offer Zdco.kReqReceive).str mime).finalize =
      ((Request.receive mime).message offer).bytes := fun offer => Request.encode_eq offer h
  refine ⟨fun offer => ?_, fun offer => ?_, fun offer => ?_⟩
  · rw [hbytes, Message.length_bytes]
    exact ((Request.receive mime).message offer).fits
  · have hword := ((Request.receive mime).message offer).loadU32_drop_bytes []
    rw [List.append_nil] at hword
    rw [hbytes, hword, Message.lengthField_opLen, Message.length_bytes]
  · have hpayload : ((Writer.new offer Zdco.kReqReceive).str mime).finalize.drop 8 =
        (Arg.str mime).bytes ++ [] := Request.args_encode offer (.receive mime)
    have hall : ∀ a ∈ [Arg.str mime], a.Fits := fits_of_length h
    have hsmall : mime.length + 1 < 2 ^ 32 := hall (.str mime) List.mem_cons_self
    have hread := str_of_drop (r := Reader.new offer Zdco.kReqReceive
      (((Writer.new offer Zdco.kReqReceive).str mime).finalize.drop 8)) hsmall hpayload
    rw [hread]

/-! ## The event -/

/-- A string that an event holds is short enough for a request: it ends with its padding before the
event does, and the padded length is a multiple of four. -/
theorem fits_offered (e : Message) :
    (Request.receive (Reader.new e.objectId e.opcode e.payload).str.1).Fits := by
  have hfits := e.fits
  rcases (Reader.new e.objectId e.opcode e.payload).str_cases with h | ⟨n, hpos, hroom, h⟩
  · have hempty : (Request.receive []).Fits := by decide
    rw [h]
    exact hempty
  · rw [h]
    apply fits_receive
    have hroom' : 4 + pad4 n ≤ e.payload.length := by
      rw [← Nat.zero_add 4]
      exact hroom
    have hshort : ((e.payload.drop (0 + 4)).take (n - 1)).length + 1 ≤ n := by
      rw [List.length_take]
      omega
    change pad4 (((e.payload.drop (0 + 4)).take (n - 1)).length + 1) + 12 < 65536
    unfold pad4 at hroom' ⊢
    omega

theorem offered_requestable (e : Message) :
    Requestable (Reader.new e.objectId e.opcode e.payload).str.1 :=
  requestable_of_fits (fits_offered e)

/-! ## Runs -/

namespace Handcrafted

/-- Every type that was recorded for an offer fits a request. -/
def Recorded (cl : Client PasteState) : Prop :=
  ∀ o ∈ cl.st.offers, ∀ m ∈ o.mimes, (Request.receive m).Fits

theorem onConn_recorded {α : Type} (p : Prog Halt Connection α) :
    Keeps Recorded (Client.onConn p) := by
  have hany : Within (fun _ _ : Connection => True) p := fun _ => trivial
  refine (Client.onConn_within hany).keeps fun cl cl' h hcl => ?_
  have hst : cl'.st = cl.st := congrArg (fun l : Client.Local PasteState => l.2.2) h.2
  unfold Recorded
  rwa [hst]

theorem mem_addMime {id : UInt32} {mime : Text} {offers : List OfferRec} {o : OfferRec} {m : Text}
    (ho : o ∈ addMime id mime offers) (hm : m ∈ o.mimes) :
    m = mime ∨ ∃ o' ∈ offers, m ∈ o'.mimes := by
  induction offers with
  | nil => cases ho
  | cons first offers ih =>
      unfold addMime at ho
      split_ifs at ho
      · rcases List.mem_cons.mp ho with rfl | ho
        · rcases List.mem_append.mp hm with hm | hm
          · exact .inr ⟨first, List.mem_cons_self, hm⟩
          · exact .inl (List.mem_singleton.mp hm)
        · exact .inr ⟨o, List.mem_cons_of_mem _ ho, hm⟩
      · rcases List.mem_cons.mp ho with rfl | ho
        · exact .inr ⟨o, List.mem_cons_self, hm⟩
        · exact (ih ho).imp_right fun ⟨o', ho', hm'⟩ => ⟨o', List.mem_cons_of_mem _ ho', hm'⟩

theorem common_offers (obj : UInt32) (op : UInt16) (r : Reader) (cl : Client PasteState) :
    (common obj op r cl).st.offers = cl.st.offers := by
  unfold common
  split <;> first | rfl | (split_ifs <;> rfl)

theorem pasteStep_recorded (e : Message) {cl : Client PasteState} (h : Recorded cl) :
    Recorded (pasteStep e.objectId e.opcode (.new e.objectId e.opcode e.payload) cl) := by
  unfold pasteStep
  split
  · unfold pasteDevice
    dsimp only
    split_ifs
    · intro o ho m hm
      rcases List.mem_append.mp ho with ho | ho
      · exact h o ho m hm
      · rw [List.mem_singleton.mp ho] at hm
        cases hm
    all_goals exact h
  · split_ifs
    · intro o ho m hm
      rcases mem_addMime ho hm with rfl | ⟨o', ho', hm'⟩
      · exact fits_offered e
      · exact h o' ho' m hm'
    · exact h
  · unfold Recorded
    rw [common_offers]
    exact h

theorem recorded_stable : Stable pasteDispatcher Recorded fun _ => Recorded where
  flush := onConn_recorded _
  waitReadable := onConn_recorded _
  pump := onConn_recorded _
  deliver e := by
    have hhandle : Keeps Recorded (handlePaste e.objectId e.opcode
        (.new e.objectId e.opcode e.payload)) := Triple.update _ fun _ h => pasteStep_recorded e h
    have hdeliver : Keeps Recorded (Client.deliver pasteDispatcher e) :=
      (Client.deliver_triple (hhandle.conseq (fun _ h => h) (fun _ _ h => h) fun _ _ h => h)).pre
        fun _ h => h
    exact hdeliver.pre fun _ h => h.1
  halts _ _ h := h
  queue _ := onConn_recorded _
  allocId _ h := h
  register _ _ _ _ := Triple.update _ fun _ h => h
  modifySession _ := Triple.update _ fun _ h => h

/-- A fetch reports the types that it was given. -/
theorem fetch_available (offer : UInt32) (mime : Text) (available : List Text) :
    Triple (fun _ => True) (fetch offer mime available) (fun r _ => r.2.available = available)
      (fun _ _ => True) := by
  have hany : ∀ {α : Type} (p : Prog Halt (Client PasteState) α),
      Triple (fun _ => True) p (fun _ _ => True) (fun _ _ => True) := fun p =>
    Triple.intro (fun _ _ _ _ _ => trivial) fun _ _ _ _ _ => trivial
  apply Triple.bind (hany _)
  rintro (_ | ⟨readEnd, writeEnd⟩)
  · exact Triple.pure _ fun _ _ => rfl
  apply Triple.bind (hany _)
  intro _
  apply Triple.bind (hany _)
  intro _
  apply Triple.bind (hany _)
  intro _
  apply Triple.bind (hany _)
  intro _
  apply Triple.bind (hany _)
  intro _
  exact Triple.pure _ fun _ _ => rfl

/-- The types that a paste lists fit requests. -/
def Lists (out : Bool × PasteResult) : Prop := ∀ m ∈ out.2.available, (Request.receive m).Fits

theorem take_lists (sel : Selection) (preferMime : Text) (listOnly : Bool) :
    Triple Recorded (take sel preferMime listOnly) (fun out _ => Lists out) (fun _ _ => True) := by
  intro cl hrecorded
  simp only [take, bind_apply, Prog.read_apply]
  by_cases hnone : target sel cl.st = 0
  · rw [if_pos hnone]
    exact List.forall_mem_nil _
  rw [if_neg hnone]
  rcases hfind : cl.st.offers.find? fun o => o.id = target sel cl.st with _ | o
  · rw [hfind]
    exact List.forall_mem_nil _
  rw [hfind]
  have hlists : ∀ m ∈ o.mimes, (Request.receive m).Fits :=
    hrecorded o (List.mem_of_find?_eq_some hfind)
  dsimp only
  split_ifs
  · exact hlists
  · exact hlists
  · have hfetch := fetch_available (target sel cl.st) (chooseMime o.mimes preferMime) o.mimes cl
      trivial
    rcases hrun : fetch (target sel cl.st) (chooseMime o.mimes preferMime) o.mimes cl with
      ⟨e | out, cl'⟩ <;> rw [hrun] at hfetch
    · trivial
    · intro m hm
      rw [hfetch] at hm
      exact hlists m hm

theorem pasteClient_lists (display seat : Text) (sel : Selection) (preferMime : Text)
    (listOnly : Bool) :
    Triple Recorded (pasteClient display seat sel preferMime listOnly) (fun out _ => Lists out)
      (fun _ _ => True) := by
  have hfailed : Triple Recorded (pure (false, .empty)) (fun out _ => Lists out)
      (fun (_ : Halt) _ => True) := Triple.pure _ fun _ _ => List.forall_mem_nil _
  apply Triple.bind (pasteSetup_stable recorded_stable (onConn_recorded _)
    (fun _ => Triple.update _ fun _ h => h) (fun _ => Triple.update _ fun _ h => h) seat sel).returns
  intro ok
  apply Triple.ite _ fun _ => hfailed
  intro _
  apply Triple.bind (recorded_stable.dispatchUntil _).returns
  intro ok
  exact Triple.ite (fun _ => take_lists sel preferMime listOnly) fun _ => hfailed

end Handcrafted

/-- Every type that a paste lists can be asked for. -/
theorem HandcraftedBackend.paste_requestable {display seat preferMime : Text} {sel : Selection}
    {listOnly : Bool} {p p' : Process} {out : Bool × PasteResult}
    (h : paste display seat sel preferMime listOnly p = (.ok out, p')) :
    ∀ m ∈ out.2.available, Requestable m := by
  have hclient : Triple (fun cl => ∃ proc, proc = p ∧ cl = Client.new proc .new)
      (Handcrafted.pasteClient display seat sel preferMime listOnly)
      (fun out _ => Handcrafted.Lists out) (fun _ _ => True) := by
    refine (Handcrafted.pasteClient_lists display seat sel preferMime listOnly).pre ?_
    rintro _ ⟨_, rfl, rfl⟩
    exact List.forall_mem_nil _
  have hlists : Handcrafted.Lists out := (Client.run_triple (Q := fun out _ => Handcrafted.Lists out)
    (H := fun _ _ => True) hclient fun _ _ _ _ h => h).ok h rfl
  exact fun m hm => requestable_of_fits (hlists m hm)

end WlClip
