import Mathlib.Data.BitVec
import Mathlib.Logic.Function.Iterate

/-!
# Requests on a socket

The simulated board reads requests of a fixed size from a stream socket
that does not block. A call reads until the request is complete or the
socket has nothing more; what it read of an incomplete request is not
kept, and every read but the first of a call is put behind the request,
since its place is computed in units of whole requests.
-/

namespace KnockoutKraken.Regression

abbrev Byte := BitVec 8

/-- What comes next on the socket; `bytes` are what one segment of the stream holds. -/
inductive Arrival where
  | bytes (first : Byte) (more : List Byte)
  | wouldBlock
  | failed
  | closed
deriving DecidableEq

namespace Arrival

def data : Arrival → List Byte
  | bytes first more => first :: more
  | wouldBlock | failed | closed => []

end Arrival

/-- `EAGAIN` and the other errors, or the bytes read; no bytes when the connection is closed. -/
inductive RecvResult where
  | again
  | error
  | read (b : List Byte)

def leave (b : List Byte) (rest : List Arrival) : List Arrival :=
  match b with
  | [] => rest
  | first :: more => .bytes first more :: rest

def recv (len : Nat) : List Arrival → RecvResult × List Arrival
  | [] => (.again, [])
  | .wouldBlock :: rest => (.again, rest)
  | .failed :: rest => (.error, rest)
  | .closed :: rest => (.read [], rest)
  | .bytes first more :: rest => (.read ((first :: more).take len), leave ((first :: more).drop len) rest)

structure IPCServer where
  socket : List Arrival
  error : Bool
deriving DecidableEq

/-- The memory from the address of the request on, and whether anything was written behind the request. -/
structure Memory where
  byteAt : Nat → Byte
  outside : Bool

namespace Memory

variable (size : Nat) (m : Memory)

def write (offset : Nat) (b : List Byte) : Memory where
  byteAt a := if offset ≤ a ∧ a < offset + b.length then b.getD (a - offset) 0 else m.byteAt a
  outside := m.outside || decide (size < offset + b.length)

def request : List Byte := (List.range size).map m.byteAt

end Memory

structure Call where
  complete : Bool
  server : IPCServer
  msg : Memory

namespace IPCServer

/-- The loop of a call: `&msg[currByte]` is `currByte` whole requests behind the request. -/
def getRequestLoop (size missingBytes currByte : Nat) (s : IPCServer) (msg : Memory) : Call :=
  if _hMissing : missingBytes = 0 then ⟨true, s, msg⟩
  else if s.error then ⟨false, s, msg⟩
  else
    match recv missingBytes s.socket with
    | (.again, socket) => ⟨false, { s with socket }, msg⟩
    | (.error, socket) => ⟨false, ⟨socket, true⟩, msg⟩
    | (.read b, socket) =>
      if _hRead : b.length = 0 then ⟨false, ⟨socket, true⟩, msg⟩
      else getRequestLoop size (missingBytes - b.length) (currByte + b.length) { s with socket }
        (msg.write size (currByte * size) b)
termination_by missingBytes

def getRequest (size : Nat) (s : IPCServer) (msg : Memory) : Call := getRequestLoop size size 0 s msg

abbrev sizeAXIL : Nat := 8 + 8 + 4 + 4

/-- `sizeof(MemoryRequest)`, which is padded to its alignment. -/
abbrev sizeAXI : Nat := 8 + 8 + 4 + 4 * 1024 + 4

def getRequestAXIL (s : IPCServer) (msg : Memory) : Call := getRequest sizeAXIL s msg

def getRequestAXI (s : IPCServer) (msg : Memory) : Call := getRequest sizeAXI s msg

end IPCServer

/-- Repeated calls, with the requests they returned as complete. -/
structure Service where
  server : IPCServer
  msg : Memory
  returned : List (List Byte)

namespace Service

def start (script : List Arrival) (msg : Nat → Byte) : Service := ⟨⟨script, false⟩, ⟨msg, false⟩, []⟩

variable (getRequest : IPCServer → Memory → Call) (size : Nat)

def call (v : Service) : Service :=
  let c := getRequest v.server v.msg
  ⟨c.server, c.msg, if c.complete then v.returned ++ [c.msg.request size] else v.returned⟩

/-- No call writes outside of the request, and enough calls return the requests sent. -/
def Framed (v : Service) (requests : List (List Byte)) : Prop :=
  (∀ k, ((call getRequest size)^[k] v).msg.outside = false) ∧
    ∃ enough, ∀ k ≥ enough, ((call getRequest size)^[k] v).returned = requests

end Service

/-- The stream in segments, with nothing to read between some of them. -/
structure Segments (script : List Arrival) (stream : List Byte) : Prop where
  stream_eq : (script.map Arrival.data).flatten = stream
  intact : ∀ a ∈ script, a ≠ .failed ∧ a ≠ .closed

/-- No segment ends inside a request. -/
def Whole (size : Nat) (script : List Arrival) : Prop := ∀ a ∈ script, size ∣ a.data.length

instance (size : Nat) (script : List Arrival) : Decidable (Whole size script) :=
  inferInstanceAs (Decidable (∀ a ∈ script, size ∣ a.data.length))

section Call

open IPCServer

variable {size : Nat} {rest : List Arrival} {msg : Memory}

theorem getRequest_nil (hSize : 0 < size) : getRequest size ⟨[], false⟩ msg = ⟨false, ⟨[], false⟩, msg⟩ := by
  rw [getRequest, getRequestLoop, dif_neg hSize.ne', if_neg Bool.false_ne_true]
  rfl

theorem getRequest_wouldBlock (hSize : 0 < size) :
    getRequest size ⟨.wouldBlock :: rest, false⟩ msg = ⟨false, ⟨rest, false⟩, msg⟩ := by
  rw [getRequest, getRequestLoop, dif_neg hSize.ne', if_neg Bool.false_ne_true]
  rfl

theorem getRequest_whole (hSize : 0 < size) {first : Byte} {more : List Byte} (hLong : size ≤ (first :: more).length) :
    getRequest size ⟨.bytes first more :: rest, false⟩ msg =
      ⟨true, ⟨leave ((first :: more).drop size) rest, false⟩, msg.write size 0 ((first :: more).take size)⟩ := by
  have hTake : ((first :: more).take size).length = size := List.length_take_of_le hLong
  rw [getRequest, getRequestLoop, dif_neg hSize.ne', if_neg Bool.false_ne_true]
  simp only [recv, hTake, dif_neg hSize.ne', Nat.sub_self, Nat.zero_mul]
  rw [getRequestLoop, dif_pos rfl]

theorem getRequest_part {first : Byte} {more : List Byte} (hShort : (first :: more).length < size) :
    getRequest size ⟨.bytes first more :: rest, false⟩ msg =
      getRequestLoop size (size - (first :: more).length) (first :: more).length ⟨rest, false⟩
        (msg.write size 0 (first :: more)) := by
  have hTake : (first :: more).take size = first :: more := List.take_of_length_le hShort.le
  have hDrop : (first :: more).drop size = [] := List.drop_of_length_le hShort.le
  rw [getRequest, getRequestLoop, dif_neg (Nat.ne_of_gt (Nat.zero_lt_of_lt hShort)), if_neg Bool.false_ne_true]
  simp only [recv, hTake, hDrop, leave, Nat.zero_mul, Nat.zero_add, List.length_cons, Nat.add_one_ne_zero, dif_neg, not_false_eq_true]

theorem request_write {b : List Byte} (hLength : b.length = size) : (msg.write size 0 b).request size = b := by
  apply List.ext_getElem
  · simp [Memory.request, hLength]
  · intro a ha hb
    simp [Memory.request, Memory.write, hb]

/-- A write behind the request is not undone. -/
theorem outside_getRequestLoop {missingBytes currByte : Nat} {s : IPCServer} (h : msg.outside = true) :
    (getRequestLoop size missingBytes currByte s msg).msg.outside = true := by
  fun_induction getRequestLoop size missingBytes currByte s msg with
  | case1 | case2 | case3 | case4 | case5 => exact h
  | case6 _ _ _ _ _ _ _ _ _ _ ih => exact ih (by rw [Memory.write, h, Bool.true_or])

end Call

section Run

open Service

variable {size : Nat}

/-- What is still to be read, with one more for each segment. -/
def waiting (script : List Arrival) : Nat := (script.map fun a => a.data.length + 1).sum

theorem data_leave (b : List Byte) (rest : List Arrival) :
    ((leave b rest).map Arrival.data).flatten = b ++ (rest.map Arrival.data).flatten := by
  cases b <;> rfl

theorem waiting_leave (b : List Byte) (rest : List Arrival) : waiting (leave b rest) ≤ b.length + 1 + waiting rest := by
  cases b with
  | nil => exact Nat.le_add_left _ _
  | cons first more => simp [leave, waiting, Arrival.data]

theorem waiting_drop (hSize : 0 < size) {first : Byte} {more : List Byte} {rest : List Arrival} :
    waiting (leave ((first :: more).drop size) rest) < waiting (.bytes first more :: rest) := by
  refine (waiting_leave _ _).trans_lt ?_
  simp only [waiting, List.map_cons, List.sum_cons, Arrival.data, List.length_drop, List.length_cons]
  omega

theorem whole_leave {b : List Byte} {rest : List Arrival} : Whole size (leave b rest) ↔ size ∣ b.length ∧ Whole size rest := by
  cases b with
  | nil => simp [leave]
  | cons first more => simp [leave, Whole, Arrival.data]

theorem intact_leave {b : List Byte} {rest : List Arrival} (h : ∀ a ∈ rest, a ≠ .failed ∧ a ≠ .closed) :
    ∀ a ∈ leave b rest, a ≠ .failed ∧ a ≠ .closed := by
  cases b with
  | nil => exact h
  | cons first more => exact List.forall_mem_cons.mpr ⟨⟨Arrival.noConfusion, Arrival.noConfusion⟩, h⟩

/-- What every call on a stream of whole requests keeps. -/
structure Service.Synced (size : Nat) (stream : List Byte) (v : Service) : Prop where
  quiet : v.server.error = false
  intact : ∀ a ∈ v.server.socket, a ≠ .failed ∧ a ≠ .closed
  whole : Whole size v.server.socket
  inside : v.msg.outside = false
  stream_eq : v.returned.flatten ++ (v.server.socket.map Arrival.data).flatten = stream
  length_eq : ∀ r ∈ v.returned, r.length = size

/-- A call on a stream of whole requests reads all of one, or nothing. -/
theorem synced_call (hSize : 0 < size) {stream : List Byte} {v : Service} (h : v.Synced size stream) :
    (v.call (IPCServer.getRequest size) size).Synced size stream ∧
      (v.server.socket = [] ∧ (v.call (IPCServer.getRequest size) size).server.socket = [] ∨
        waiting (v.call (IPCServer.getRequest size) size).server.socket < waiting v.server.socket) := by
  obtain ⟨⟨socket, error⟩, msg, returned⟩ := v
  obtain ⟨hQuiet, hIntact, hWhole, hInside, hStream, hLength⟩ := h
  obtain rfl : error = false := hQuiet
  match socket with
  | [] =>
    rw [call, getRequest_nil hSize]
    exact ⟨⟨rfl, hIntact, hWhole, hInside, hStream, hLength⟩, .inl ⟨rfl, rfl⟩⟩
  | .wouldBlock :: rest =>
    rw [call, getRequest_wouldBlock hSize]
    exact ⟨⟨rfl, (List.forall_mem_cons.mp hIntact).2, (List.forall_mem_cons.mp hWhole).2, hInside, hStream, hLength⟩,
      .inr (by simp [waiting])⟩
  | .failed :: rest => exact absurd rfl (List.forall_mem_cons.mp hIntact).1.1
  | .closed :: rest => exact absurd rfl (List.forall_mem_cons.mp hIntact).1.2
  | .bytes first more :: rest =>
    obtain ⟨hSegment, hRest⟩ := List.forall_mem_cons.mp hWhole
    have hLong : size ≤ (first :: more).length := Nat.le_of_dvd (Nat.zero_lt_succ _) hSegment
    have hTake : ((first :: more).take size).length = size := List.length_take_of_le hLong
    have hDrop : size ∣ ((first :: more).drop size).length := by
      rw [List.length_drop]
      exact Nat.dvd_sub hSegment (Nat.dvd_refl size)
    rw [call, getRequest_whole hSize hLong]
    refine ⟨⟨rfl, intact_leave (List.forall_mem_cons.mp hIntact).2, whole_leave.mpr ⟨hDrop, hRest⟩, ?_, ?_, ?_⟩, .inr ?_⟩
    · simp only [Memory.write, hTake, Nat.zero_add, Nat.lt_irrefl, decide_false, Bool.or_false]
      exact hInside
    · rw [if_pos rfl, request_write hTake, data_leave, List.flatten_append, List.flatten_singleton, List.append_assoc,
        ← List.append_assoc (List.take size _), List.take_append_drop]
      exact hStream
    · rw [if_pos rfl, request_write hTake]
      intro r hr
      rcases List.mem_append.mp hr with hr | hr
      · exact hLength r hr
      · rw [List.mem_singleton.mp hr, hTake]
    · exact waiting_drop hSize

theorem waiting_eq_zero {script : List Arrival} (h : waiting script = 0) : script = [] := by
  cases script with
  | nil => rfl
  | cons a rest => simp [waiting] at h

theorem synced_calls (hSize : 0 < size) {stream : List Byte} {v : Service} (h : v.Synced size stream) (k : Nat) :
    ((call (IPCServer.getRequest size) size)^[k] v).Synced size stream ∧
      (waiting v.server.socket ≤ k → ((call (IPCServer.getRequest size) size)^[k] v).server.socket = []) := by
  induction k generalizing v with
  | zero => exact ⟨h, fun hZero => waiting_eq_zero (Nat.le_zero.mp hZero)⟩
  | succ k ih =>
    obtain ⟨hNext, hProgress⟩ := synced_call hSize h
    obtain ⟨hEnd, hRead⟩ := ih hNext
    refine ⟨hEnd, fun hLong => hRead ?_⟩
    rcases hProgress with ⟨_, hEmpty⟩ | hLess
    · rw [hEmpty]
      exact Nat.zero_le k
    · omega

theorem requests_unique (hSize : 0 < size) {l l' : List (List Byte)} (h : ∀ r ∈ l, r.length = size)
    (h' : ∀ r ∈ l', r.length = size) (hFlatten : l.flatten = l'.flatten) : l = l' := by
  have hLengths : ∀ {m : List (List Byte)}, (∀ r ∈ m, r.length = size) → m.map List.length = List.replicate m.length size :=
    fun hm => List.eq_replicate_iff.mpr ⟨List.length_map _, List.forall_mem_map.mpr hm⟩
  have hCount : l.length * size = l'.length * size := by
    have hSum := congrArg List.length hFlatten
    rwa [List.length_flatten, List.length_flatten, hLengths h, hLengths h', List.sum_replicate_nat, List.sum_replicate_nat] at hSum
  refine List.eq_iff_flatten_eq.mpr ⟨hFlatten, ?_⟩
  rw [hLengths h, hLengths h', Nat.eq_of_mul_eq_mul_right hSize hCount]

theorem framed_of_whole (hSize : 0 < size) {script : List Arrival} {requests : List (List Byte)} (msg : Nat → Byte)
    (hLength : ∀ r ∈ requests, r.length = size) (hScript : Segments script requests.flatten) (hWhole : Whole size script) :
    Framed (IPCServer.getRequest size) size (start script msg) requests := by
  have hStart : (start script msg).Synced size requests.flatten :=
    ⟨rfl, hScript.intact, hWhole, rfl, hScript.stream_eq, fun r hr => absurd hr List.not_mem_nil⟩
  refine ⟨fun k => (synced_calls hSize hStart k).1.inside, waiting script, fun k hk => ?_⟩
  obtain ⟨hEnd, hRead⟩ := synced_calls hSize hStart k
  have hAll := hEnd.stream_eq
  rw [hRead hk, List.map_nil, List.flatten_nil, List.append_nil] at hAll
  exact requests_unique hSize hEnd.length_eq hLength hAll

end Run

section Torn

open Service

variable {size : Nat}

def pending (script : List Arrival) : Nat := (script.map Arrival.data).flatten.length

/-- The bytes returned in requests and the bytes that were not read. -/
def weight (size : Nat) (v : Service) : Nat := size * v.returned.length + pending v.server.socket

theorem pending_recv (len : Nat) (script : List Arrival) :
    (match (recv len script).1 with | .read b => b.length | _ => 0) + pending (recv len script).2 = pending script := by
  match script with
  | [] | .wouldBlock :: rest | .failed :: rest | .closed :: rest => simp [recv, pending, Arrival.data]
  | .bytes first more :: rest =>
    simp only [recv, pending, data_leave, List.map_cons, List.flatten_cons, Arrival.data, List.length_append]
    rw [← Nat.add_assoc, ← List.length_append, List.take_append_drop]

theorem pending_getRequestLoop (missingBytes currByte : Nat) (s : IPCServer) (msg : Memory) :
    (if (IPCServer.getRequestLoop size missingBytes currByte s msg).complete then missingBytes else 0) +
      pending (IPCServer.getRequestLoop size missingBytes currByte s msg).server.socket ≤ pending s.socket := by
  fun_induction IPCServer.getRequestLoop size missingBytes currByte s msg with
  | case1 => simp
  | case2 => simp
  | case3 missingBytes _ s _ _ _ socket hRecv | case4 missingBytes _ s _ _ _ socket hRecv =>
    have hPending := pending_recv missingBytes s.socket
    simp only [hRecv] at hPending
    simp only [Bool.false_eq_true, if_false]
    omega
  | case5 missingBytes _ s _ _ _ b socket hRecv _ =>
    have hPending := pending_recv missingBytes s.socket
    simp only [hRecv] at hPending
    simp only [Bool.false_eq_true, if_false]
    omega
  | case6 missingBytes _ s _ _ _ b socket hRecv _ ih =>
    have hPending := pending_recv missingBytes s.socket
    simp only [hRecv] at hPending
    split at ih <;> simp_all only [if_true, if_false, Bool.false_eq_true] <;> omega

theorem weight_call (v : Service) : weight size (v.call (IPCServer.getRequest size) size) ≤ weight size v := by
  have hPending := @pending_getRequestLoop size size 0 v.server v.msg
  simp only [weight, call, IPCServer.getRequest]
  split at hPending <;> simp_all only [if_true, if_false, Bool.false_eq_true, List.length_append, List.length_singleton,
    Nat.mul_add, Nat.mul_one] <;> omega

theorem weight_calls (v : Service) (k : Nat) : weight size ((call (IPCServer.getRequest size) size)^[k] v) ≤ weight size v := by
  induction k generalizing v with
  | zero => exact Nat.le_refl _
  | succ k ih => exact (ih _).trans (weight_call v)

section Part

variable {rest : List Arrival} {msg : Memory} {missingBytes currByte : Nat}

theorem getRequestLoop_nil (hMissing : 0 < missingBytes) :
    IPCServer.getRequestLoop size missingBytes currByte ⟨[], false⟩ msg = ⟨false, ⟨[], false⟩, msg⟩ := by
  rw [IPCServer.getRequestLoop, dif_neg hMissing.ne', if_neg Bool.false_ne_true]
  rfl

theorem getRequestLoop_wouldBlock (hMissing : 0 < missingBytes) :
    IPCServer.getRequestLoop size missingBytes currByte ⟨.wouldBlock :: rest, false⟩ msg = ⟨false, ⟨rest, false⟩, msg⟩ := by
  rw [IPCServer.getRequestLoop, dif_neg hMissing.ne', if_neg Bool.false_ne_true]
  rfl

theorem outside_of_second (hMissing : 0 < missingBytes) (hCurr : 0 < currByte) {first : Byte} {more : List Byte} :
    (IPCServer.getRequestLoop size missingBytes currByte ⟨.bytes first more :: rest, false⟩ msg).msg.outside = true := by
  have hTake : 0 < ((first :: more).take missingBytes).length := by
    rw [List.length_take]
    exact Nat.lt_min.mpr ⟨hMissing, Nat.zero_lt_succ _⟩
  rw [IPCServer.getRequestLoop, dif_neg hMissing.ne', if_neg Bool.false_ne_true]
  simp only [recv, dif_neg hTake.ne']
  apply outside_getRequestLoop
  have hFar : size ≤ currByte * size := Nat.le_mul_of_pos_left size hCurr
  rw [Memory.write, Bool.or_eq_true, decide_eq_true_eq]
  exact .inr (by omega)

end Part

/-- Where a segment ends inside a request, bytes are put behind the request or lost. -/
theorem torn (hSize : 0 < size) {v : Service} (hQuiet : v.server.error = false)
    (hIntact : ∀ a ∈ v.server.socket, a ≠ .failed ∧ a ≠ .closed) (hTorn : ¬ Whole size v.server.socket) :
    ∃ k, ((call (IPCServer.getRequest size) size)^[k] v).msg.outside = true ∨
      weight size ((call (IPCServer.getRequest size) size)^[k] v) < weight size v := by
  induction hWaiting : waiting v.server.socket using Nat.strong_induction_on generalizing v with
  | _ n ih =>
  subst hWaiting
  -- A call that reads one request or nothing leaves the torn one to the calls after it.
  have hLater : (v.call (IPCServer.getRequest size) size).server.error = false →
      (∀ a ∈ (v.call (IPCServer.getRequest size) size).server.socket, a ≠ .failed ∧ a ≠ .closed) →
      ¬ Whole size (v.call (IPCServer.getRequest size) size).server.socket →
      waiting (v.call (IPCServer.getRequest size) size).server.socket < waiting v.server.socket →
      ∃ k, ((call (IPCServer.getRequest size) size)^[k] v).msg.outside = true ∨
        weight size ((call (IPCServer.getRequest size) size)^[k] v) < weight size v := by
    intro hQuiet hIntact hTorn hLess
    obtain ⟨k, hk⟩ := ih _ hLess hQuiet hIntact hTorn rfl
    exact ⟨k + 1, hk.imp_right fun hLost => hLost.trans_le (weight_call v)⟩
  obtain ⟨⟨socket, error⟩, msg, returned⟩ := v
  obtain rfl : error = false := hQuiet
  match socket with
  | [] => exact absurd (List.forall_mem_nil _) hTorn
  | .failed :: rest => exact absurd rfl (List.forall_mem_cons.mp hIntact).1.1
  | .closed :: rest => exact absurd rfl (List.forall_mem_cons.mp hIntact).1.2
  | .wouldBlock :: rest =>
    rw [call, getRequest_wouldBlock hSize] at hLater
    refine hLater rfl (List.forall_mem_cons.mp hIntact).2 (fun hWhole => hTorn ?_) (by simp [waiting])
    exact List.forall_mem_cons.mpr ⟨Nat.dvd_zero size, hWhole⟩
  | .bytes first more :: rest =>
    rcases Nat.lt_or_ge (first :: more).length size with hShort | hLong
    · have hMissing : 0 < size - (first :: more).length := Nat.sub_pos_of_lt hShort
      refine ⟨1, ?_⟩
      rw [Function.iterate_one, call, getRequest_part hShort]
      match rest with
      | [] =>
        rw [getRequestLoop_nil hMissing]
        exact .inr (by simp [weight, pending, Arrival.data])
      | .wouldBlock :: rest =>
        rw [getRequestLoop_wouldBlock hMissing]
        refine .inr ?_
        simp only [weight, Bool.false_eq_true, ite_false, pending, List.length_flatten, List.map_map, List.map_cons,
          Arrival.data, List.flatten_cons, List.nil_append, List.cons_append, List.length_cons, List.length_append,
          Nat.add_lt_add_iff_left]
        omega
      | .bytes _ _ :: rest => exact .inl (outside_of_second hMissing (Nat.zero_lt_succ _))
      | .failed :: rest => exact absurd rfl (List.forall_mem_cons.mp (List.forall_mem_cons.mp hIntact).2).1.1
      | .closed :: rest => exact absurd rfl (List.forall_mem_cons.mp (List.forall_mem_cons.mp hIntact).2).1.2
    · rw [call, getRequest_whole hSize hLong] at hLater
      refine hLater rfl (intact_leave (List.forall_mem_cons.mp hIntact).2) (fun hWhole => hTorn ?_) ?_
      · obtain ⟨hDrop, hRest⟩ := whole_leave.mp hWhole
        rw [List.length_drop] at hDrop
        exact List.forall_mem_cons.mpr ⟨(Nat.dvd_sub_iff_left hLong (Nat.dvd_refl size)).mp hDrop, hRest⟩
      · exact waiting_drop hSize

/-- Requests of one size are framed exactly when no segment ends inside a request. -/
theorem framed_iff (hSize : 0 < size) {script : List Arrival} {requests : List (List Byte)} (msg : Nat → Byte)
    (hLength : ∀ r ∈ requests, r.length = size) (hScript : Segments script requests.flatten) :
    Framed (IPCServer.getRequest size) size (start script msg) requests ↔ Whole size script := by
  refine ⟨fun ⟨hInside, enough, hReturned⟩ => ?_, framed_of_whole hSize msg hLength hScript⟩
  by_contra hTorn
  obtain ⟨k, hOutside | hLost⟩ := torn hSize (rfl : (start script msg).server.error = false) hScript.intact hTorn
  · rw [hInside k] at hOutside
    cases hOutside
  · have hLater := @weight_calls size ((call (IPCServer.getRequest size) size)^[k] (start script msg)) enough
    rw [← Function.iterate_add_apply] at hLater
    have hTotal : weight size (start script msg) = size * requests.length := by
      have hSum : (requests.map List.length).sum = size * requests.length := by
        rw [List.eq_replicate_iff.mpr ⟨List.length_map _, List.forall_mem_map.mpr hLength⟩, List.sum_replicate_nat, Nat.mul_comm]
      rw [← hSum, ← List.length_flatten, ← hScript.stream_eq]
      exact Nat.zero_add _
    have hEnd : size * requests.length ≤ weight size ((call (IPCServer.getRequest size) size)^[enough + k] (start script msg)) := by
      rw [weight, hReturned (enough + k) (Nat.le_add_right _ _)]
      exact Nat.le_add_right _ _
    omega

end Torn

section Requests

open Service IPCServer

/-- The requests of both kinds, in any segments and with anything in the memory of the request. -/
theorem requests_framed_iff (script : List Arrival) (requests : List (List Byte)) (msg : Nat → Byte)
    (hScript : Segments script requests.flatten) :
    ((∀ r ∈ requests, r.length = sizeAXIL) →
      (Framed getRequestAXIL sizeAXIL (start script msg) requests ↔ Whole sizeAXIL script)) ∧
    ((∀ r ∈ requests, r.length = sizeAXI) →
      (Framed getRequestAXI sizeAXI (start script msg) requests ↔ Whole sizeAXI script)) :=
  ⟨fun hLength => framed_iff (by decide) msg hLength hScript, fun hLength => framed_iff (by decide) msg hLength hScript⟩

def zeros (n : Nat) : Arrival := .bytes 0 (List.replicate n 0)

def counted (first n : Nat) : List Byte := (List.range n).map fun k => BitVec.ofNat 8 (first + k)

/-- Two requests in one segment, after a call that finds nothing. -/
def twoAXIL : List Arrival := [.wouldBlock, .bytes 1 (counted 2 23 ++ counted 101 24)]

def oneAXI : List Arrival := [.bytes 0x5A (List.replicate 4119 0x5A), .wouldBlock]

theorem mem_oneAXI {a : Arrival} : a ∈ oneAXI ↔ a = .bytes 0x5A (List.replicate 4119 0x5A) ∨ a = .wouldBlock := by
  rw [oneAXI, List.mem_cons, List.mem_singleton]

theorem framed_two : Framed getRequestAXIL sizeAXIL (start twoAXIL fun _ => 1) [counted 1 24, counted 101 24] ∧
    Framed getRequestAXI sizeAXI (start oneAXI fun _ => 1) [List.replicate 4120 0x5A] := by
  have hTwo : Segments twoAXIL [counted 1 24, counted 101 24].flatten := ⟨by decide, by decide⟩
  have hOne : Segments oneAXI [List.replicate 4120 (0x5A : Byte)].flatten := by
    refine ⟨?_, fun a ha => ?_⟩
    · simp only [oneAXI, List.map_cons, List.map_nil, Arrival.data, List.flatten_cons, List.flatten_nil, List.append_nil,
        ← List.replicate_succ]
    · rcases mem_oneAXI.mp ha with rfl | rfl
      · exact ⟨nofun, nofun⟩
      · exact ⟨nofun, nofun⟩
  refine ⟨((requests_framed_iff twoAXIL _ (fun _ => 1) hTwo).1 (by decide)).mpr (by decide),
    ((requests_framed_iff oneAXI _ (fun _ => 1) hOne).2 fun r hr => ?_).mpr fun a ha => ?_⟩
  · rw [List.mem_singleton.mp hr, List.length_replicate]
  · rcases mem_oneAXI.mp ha with rfl | rfl
    · rw [Arrival.data, List.length_cons, List.length_replicate]
    · exact Nat.dvd_zero _

/-- A request in two segments: the second one is put behind the request. -/
theorem torn_request : ¬ ∀ (script : List Arrival) (requests : List (List Byte)) (msg : Nat → Byte),
    Segments script requests.flatten → (∀ r ∈ requests, r.length = sizeAXIL) →
      Framed getRequestAXIL sizeAXIL (start script msg) requests := by
  intro h
  have hScript : Segments [zeros 7, zeros 15] [List.replicate 24 (0 : Byte)].flatten := ⟨by decide, by decide⟩
  have hInside := (h _ _ (fun _ => 0) hScript (by decide)).1 1
  rw [Function.iterate_one, call, getRequestAXIL, start, zeros, getRequest_part (by decide), zeros,
    outside_of_second (by decide) (by decide)] at hInside
  cases hInside

end Requests

end KnockoutKraken.Regression
