import WlClip.Daemon
import WlClip.Marshal
import WlClip.Transfer

/-!
# Consumers of a copy

A consumer is a request for the payload whose transfer is finished: the type that it asks for, the
descriptor that it passes, and the calls of its transfer. It is fatal when it closes its end of the
pipe while bytes are left to be written. `handed` is what the consumers of a run are given.
-/

open ScriptedProgram ScriptedProgram.Prog

namespace WlClip

structure Consumer (data : List UInt8) where
  mime : Text
  fits : ([Arg.str mime].flatMap Arg.bytes).length + 8 < 65536
  fd : Int
  valid : 0 ≤ fd
  log : List Action
  out : List UInt8
  ending : Process.TransferEnd
  finished : Process.Transfer fd data log out ending

inductive Handed
  | begun (fd : Int) (data : List UInt8)
  | wrote (fd : Int) (bytes : List UInt8)
  deriving DecidableEq

def Action.handed : Action → List Handed
  | .serveSend fd data => [.begun fd data]
  | .call (.write fd bytes) (.write (.wrote n)) => [.wrote fd (bytes.take n)]
  | _ => []

namespace Process

/-- The transfers begun so far, each followed by the bytes that were written in it. -/
def handed (p : Process) : List Handed := p.observe Action.handed

end Process

namespace Consumer

variable {data : List UInt8}

def fatal (c : Consumer data) : Bool := c.ending = .broken

def taking (mime : Text) (fits : ([Arg.str mime].flatMap Arg.bytes).length + 8 < 65536) (fd : Int)
    (valid : 0 ≤ fd) (hdata : data ≠ []) : Consumer data where
  mime := mime
  fits := fits
  fd := fd
  valid := valid
  log := [.call (.write fd data) (.write (.wrote data.length))]
  out := data.take data.length ++ []
  ending := .complete
  finished := .wrote data.length hdata (List.length_pos_iff.mpr hdata)
    (by rw [List.drop_length]; exact .complete)

/-- The consumer that has closed its end of the pipe before anything is written. -/
def closing (mime : Text) (fits : ([Arg.str mime].flatMap Arg.bytes).length + 8 < 65536) (fd : Int)
    (valid : 0 ≤ fd) (hdata : data ≠ []) : Consumer data where
  mime := mime
  fits := fits
  fd := fd
  valid := valid
  log := [.call (.write fd data) (.write .noReader)]
  out := []
  ending := .broken
  finished := .broken hdata

def replies (c : Consumer data) : List Reply := c.log.filterMap Action.reply

def trace (c : Consumer data) : List Action := Process.serveLog c.fd data c.log c.ending

def handed (c : Consumer data) : List Handed := c.trace.flatMap Action.handed

end Consumer

def Handed.bytes : Handed → List UInt8
  | .begun _ _ => []
  | .wrote _ bytes => bytes

namespace Process

theorem Transfer.handed_bytes {fd : Int} {data out : List UInt8} {log : List Action}
    {e : TransferEnd} (h : Transfer fd data log out e) :
    (log.flatMap Action.handed).flatMap Handed.bytes = out := by
  induction h with
  | complete => rfl
  | wrote n hdata hn h ih =>
      rw [List.flatMap_cons, List.flatMap_append, ih]
      simp [Action.handed, Handed.bytes]
  | interrupted hdata h ih => exact ih
  | waited pollin hdata h ih => exact ih
  | timedOut r hdata hr => rfl
  | failed r hdata hr =>
      rcases hr with rfl | ⟨e, rfl, -, -⟩ <;> rfl
  | broken hdata => rfl

end Process

theorem Consumer.trace_flatMap {data : List UInt8} (c : Consumer data) {β : Type}
    {f : Action → List β} (hf : ∀ fd, f (.close fd) = []) :
    c.trace.flatMap f = f (.serveSend c.fd data) ++ c.log.flatMap f := by
  have hclose : (if c.ending = .broken then [] else Process.closeLog c.fd).flatMap f = [] := by
    unfold Process.closeLog
    split_ifs
    · rfl
    · rw [List.flatMap_singleton, hf]
    · rfl
  rw [trace, Process.serveLog, List.flatMap_append, hclose, List.append_nil, List.flatMap_cons]

/-- The bytes that a consumer is given are what its transfer has put out: all of the payload
exactly when the transfer is complete. -/
theorem Consumer.handed_bytes {data : List UInt8} (c : Consumer data) :
    c.handed.flatMap Handed.bytes = c.out := by
  rw [handed, c.trace_flatMap fun _ => rfl, List.flatMap_append, c.finished.handed_bytes]
  rfl

/-- Serving a consumer takes the results of its calls and kills the process if it is fatal. -/
theorem Consumer.serve {data : List UInt8} (c : Consumer data) {p : Process} {rest : List Reply}
    (hs : p.script = c.replies ++ rest) (hsig : p.sigpipe = .default) :
    Process.serveSend c.fd data p =
      (if c.fatal then .error .killed else .ok (), p.after c.trace rest) := by
  have hserve := Process.serveSend_of_transfer c.finished hs hsig
  rw [hserve, trace, fatal]
  simp only [decide_eq_true_iff]

end WlClip
