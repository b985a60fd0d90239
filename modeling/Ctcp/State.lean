import Ctcp.Wire
import Mathlib.Algebra.BigOperators.Group.List

/-!
# cTCP Engine State

The per-connection record `ctcp_state` of `ctcp.c` with its four parts (`Conn_state`,
`ACK_state`, the two queues of `TX_state` and `RX_state` elements, `Teardown_state`), the
configuration it is created from, and the events a handler produces.

The registry links `next` and `prev` and the host's `conn` pointer are not part of this
record: the registry is modelled on its own in `Ctcp.Registry`, and the host is what the
events of §4 talk to.

## Events

A handler's effect on the outside world is the ordered list of its calls to the host
(`conn_send` of a whole segment, `conn_output` with bytes or with `NULL` for end-of-stream)
together with two ghost events marking the `ll_add` calls on the two queues. The ghost
events name the streams the correctness statements speak about: the bytes `ctcp_read`
appended to the Send Queue, and the payloads `ctcp_receive` accepted into the Receive Queue.
-/

namespace Ctcp

/-! ## §1 Queue elements -/

/-- `TX_state`: a Send Queue element. `buffer_size` is not a field here: `ctcp_read` sets it
to the payload's length when it creates the element, and neither changes afterwards. -/
structure TxState where
  /-- One past the sequence number of the payload's last byte, set when the element is sent;
  `0` (from `calloc`) until then. -/
  segment_next_seqno : UInt32
  tx_buffer : List UInt8
deriving DecidableEq, Repr

/-- `buffer_size` of a Send Queue element. -/
def TxState.buffer_size (e : TxState) : Nat := e.tx_buffer.length

@[simp] theorem TxState.buffer_size_retagged (e : TxState) (t : UInt32) :
    { e with segment_next_seqno := t }.buffer_size = e.buffer_size := rfl

/-- `RX_state`: a Receive Queue element with its two cursors. -/
structure RxState where
  /-- Bytes already written to the sink. -/
  byte_used : Int
  /-- Bytes not yet written. -/
  byte_left : Int
  rx_buffer : List UInt8
deriving DecidableEq, Repr

/-- Payload bytes held by a list of Send Queue elements. -/
def txBytes (q : List TxState) : Nat := (q.map TxState.buffer_size).sum

@[simp] theorem txBytes_nil : txBytes [] = 0 := rfl

@[simp] theorem txBytes_cons (e : TxState) (q : List TxState) :
    txBytes (e :: q) = e.buffer_size + txBytes q := by simp [txBytes]

@[simp] theorem txBytes_append (q r : List TxState) :
    txBytes (q ++ r) = txBytes q + txBytes r := by simp [txBytes]

/-! ## §2 The connection record -/

/-- `Conn_state`: sequence counters and window accounting. -/
structure ConnState where
  /-- Lowest unacknowledged sequence number we sent. -/
  seqno : UInt32
  /-- Sequence number of the next byte to transmit; the cursor of a sending pass. -/
  next_seqno : UInt32
  /-- Next in-order sequence number expected from the peer. -/
  ackno : UInt32
  /-- The value `ackno` had before its last update. -/
  last_ackno : UInt32
  send_window : UInt16
  send_window_used : UInt16
  rcv_window : UInt16
  rcv_window_used : UInt16
deriving DecidableEq, Repr

/-- `ACK_state`: the retransmission timer. -/
structure AckState where
  /-- Consecutive timeouts so far. -/
  time_out_num : UInt8
  /-- Ticks since the timer was armed or last fired. -/
  counter : UInt8
  /-- Ticks per timeout, `⌈rt_timeout / timer⌉` narrowed to `uint8_t`. -/
  timer_overflow : UInt8
  /-- Is a retransmission armed? -/
  time_out : Bool
deriving DecidableEq, Repr

/-- `Teardown_state`. -/
inductive TeardownState where
  | NO_CLOSE
  | ACTIVE_CLOSE
  | PASSIVE_CLOSE
deriving DecidableEq, Repr

/-- `struct ctcp_state` without its registry links and host handle. -/
structure CtcpState where
  conn_state : ConnState
  /-- The Send Queue, front first. -/
  tx_state : List TxState
  /-- The Receive Queue, front first. -/
  rx_state : List RxState
  ack_state : AckState
  segment_teardown : TeardownState
deriving DecidableEq, Repr

/-- Modelled from the spec: `ctcp_config_t` of the host header (§6). -/
structure CtcpConfig where
  send_window : UInt16
  recv_window : UInt16
  /-- Retransmission timeout in milliseconds. -/
  rt_timeout : Nat
  /-- Tick period in milliseconds. -/
  timer : Nat
deriving DecidableEq, Repr

/-- `⌈rt_timeout / timer⌉` as `ctcp_init` computes it in `int`, stored into `uint8_t`.
(A zero `timer` is undefined behaviour in C; Lean's division by zero gives `0`.) -/
def timerOverflow (cfg : CtcpConfig) : UInt8 :=
  UInt8.ofNat (if cfg.rt_timeout % cfg.timer = 0 then cfg.rt_timeout / cfg.timer
    else cfg.rt_timeout / cfg.timer + 1)

/-- The fields `ctcp_init` sets on a fresh connection. -/
def ctcpInit (cfg : CtcpConfig) : CtcpState where
  conn_state :=
    { seqno := 1, next_seqno := 1, ackno := 1, last_ackno := 1,
      send_window := cfg.send_window, send_window_used := 0,
      rcv_window := cfg.recv_window, rcv_window_used := 0 }
  tx_state := []
  rx_state := []
  ack_state := { time_out := false, time_out_num := 0, counter := 0,
                 timer_overflow := timerOverflow cfg }
  segment_teardown := .NO_CLOSE

/-! ## §3 Busy-wait loops -/

/-- `while (cond);` with an empty body, run with `fuel` tests of the condition. The body changes
nothing, so the condition is the same at every test: the loop leaves at once when it is false
and never when it is true. -/
def spin : Nat → Bool → Option Unit
  | 0, _ => none
  | n + 1, busy => if busy then spin n busy else some ()

/-- A busy-wait on a true condition does not return, whatever the fuel. -/
theorem spin_true (fuel : Nat) : spin fuel true = none := by
  induction fuel with
  | zero => rfl
  | succ n ih => simpa [spin] using ih

@[simp] theorem spin_succ_false (n : Nat) : spin (n + 1) false = some () := rfl

/-! ## §4 Events -/

/-- What a handler does that can be seen from outside the engine, in order. -/
inductive Event where
  /-- `conn_send` of a whole encoded segment. -/
  | send (seg : Segment)
  /-- `conn_output` of bytes; the bytes are those the sink accepted. -/
  | output (data : List UInt8)
  /-- `conn_output(conn, NULL, 0)`: end-of-stream to the sink. -/
  | eof
  /-- Ghost: `ctcp_read` appended a chunk to the Send Queue. -/
  | enqueue (chunk : List UInt8)
  /-- Ghost: `ctcp_receive` appended a payload to the Receive Queue. -/
  | accept (payload : List UInt8)
deriving DecidableEq, Repr

/-- The segment of a `send` event. -/
def Event.segment : Event → Option Segment
  | .send seg => some seg
  | _ => none

/-- The chunk of an `enqueue` event. -/
def Event.enqueued : Event → List UInt8
  | .enqueue c => c
  | _ => []

/-- The bytes of an `output` event. -/
def Event.written : Event → List UInt8
  | .output d => d
  | _ => []

/-- The payload of an `accept` event. -/
def Event.accepted : Event → List UInt8
  | .accept p => p
  | _ => []

/-- Segments handed to `conn_send`, in order. -/
def sends (tr : List Event) : List Segment := tr.filterMap Event.segment

/-- The engine's outbound stream: every chunk appended to the Send Queue, in order. -/
def outbound (tr : List Event) : List UInt8 := tr.flatMap Event.enqueued

/-- Bytes written to the sink, in order. -/
def sinkBytes (tr : List Event) : List UInt8 := tr.flatMap Event.written

/-- Payloads accepted into the Receive Queue, in order. -/
def acceptedBytes (tr : List Event) : List UInt8 := tr.flatMap Event.accepted

@[simp] theorem sends_append (a b : List Event) : sends (a ++ b) = sends a ++ sends b := by
  simp [sends]

@[simp] theorem outbound_append (a b : List Event) :
    outbound (a ++ b) = outbound a ++ outbound b := by simp [outbound]

@[simp] theorem sinkBytes_append (a b : List Event) :
    sinkBytes (a ++ b) = sinkBytes a ++ sinkBytes b := by simp [sinkBytes]

@[simp] theorem acceptedBytes_append (a b : List Event) :
    acceptedBytes (a ++ b) = acceptedBytes a ++ acceptedBytes b := by simp [acceptedBytes]

@[simp] theorem sends_nil : sends [] = [] := rfl
@[simp] theorem outbound_nil : outbound [] = [] := rfl
@[simp] theorem sinkBytes_nil : sinkBytes [] = [] := rfl
@[simp] theorem acceptedBytes_nil : acceptedBytes [] = [] := rfl

@[simp] theorem sends_cons (ev : Event) (tr : List Event) :
    sends (ev :: tr) = (ev.segment.toList ++ sends tr) := by
  cases ev <;> simp [sends, Event.segment]

@[simp] theorem sends_map_send (segs : List Segment) : sends (segs.map .send) = segs := by
  induction segs <;> simp_all [Event.segment]

@[simp] theorem outbound_map_send (segs : List Segment) : outbound (segs.map .send) = [] := by
  simp [outbound, Event.enqueued]

@[simp] theorem sinkBytes_map_send (segs : List Segment) : sinkBytes (segs.map .send) = [] := by
  simp [sinkBytes, Event.written]

@[simp] theorem acceptedBytes_map_send (segs : List Segment) :
    acceptedBytes (segs.map .send) = [] := by
  simp [acceptedBytes, Event.accepted]

/-- A list of events that are all sends of segments with property `p`. -/
theorem sendsOnly {evs : List Event} {p : Segment → Prop}
    (h : ∀ ev ∈ evs, ∃ seg, ev = .send seg ∧ p seg) :
    outbound evs = [] ∧ sinkBytes evs = [] ∧ acceptedBytes evs = [] ∧ ∀ seg ∈ sends evs, p seg := by
  induction evs with
  | nil => simp
  | cons ev evs ih =>
    obtain ⟨seg, rfl, hp⟩ := h ev (List.mem_cons_self _ _)
    obtain ⟨h1, h2, h3, h4⟩ := ih fun e he => h e (List.mem_cons_of_mem _ he)
    simp only [outbound, sinkBytes, acceptedBytes, sends, List.flatMap_cons, List.filterMap_cons,
      Event.enqueued, Event.written, Event.accepted, Event.segment, List.nil_append,
      List.mem_cons, forall_eq_or_imp] at *
    exact ⟨h1, h2, h3, hp, h4⟩

@[simp] theorem outbound_cons (ev : Event) (tr : List Event) :
    outbound (ev :: tr) = ev.enqueued ++ outbound tr := by simp [outbound]

@[simp] theorem sinkBytes_cons (ev : Event) (tr : List Event) :
    sinkBytes (ev :: tr) = ev.written ++ sinkBytes tr := by simp [sinkBytes]

@[simp] theorem acceptedBytes_cons (ev : Event) (tr : List Event) :
    acceptedBytes (ev :: tr) = ev.accepted ++ acceptedBytes tr := by simp [acceptedBytes]

end Ctcp
