import KeemashCore.LittleEndian.Field
import KeemashCore.Mesh.Command

/-!
# The log stream of a node

`keemash_mesh_log_stream.c`: any number of tasks log lines into a queue of fixed length, and
one worker sends them.  A line that does not fit is counted, and the worker reports the
count.  The tasks and the worker interleave between the queue operations and the critical
sections, each of which is one step here.
-/

namespace KeemashCore.MeshLog

open LittleEndian MeshNode

/-! ## State -/

/-- `CONFIG_KEEMASH_*`. -/
structure Config where
  queueLen : ℕ
  lineMax : ℕ
  preNegotiation : Bool

/-- A task inside `capture_log_line`. -/
inductive Capture where
  /-- The stream was enabled, and the line is put together. -/
  | entered (line : List UInt8)
  /-- `xQueueSend` took the line. -/
  | queued
  /-- `uxQueueMessagesWaiting` was called. -/
  | counted (pending : U32)
  /-- The queue was full. -/
  | refused
  deriving DecidableEq, Repr

/-- Where `log_worker_task` is. -/
inductive Worker where
  | idle
  /-- `send_logline_to_root` is tried with a line from the queue. -/
  | sending (line : List UInt8)
  /-- It returned `ESP_OK`. -/
  | sent
  /-- `uxQueueMessagesWaiting` was called. -/
  | counted (pending : U32)
  /-- After the critical section, with `overflow`. -/
  | reporting (overflow : U32)
  deriving DecidableEq, Repr

/-- `keemash_mesh_log_stream_stats_t`. -/
structure Stats where
  captured : U32
  delivered : U32
  captureOverflow : U32
  pending : U32
  highWatermark : U32
  deriving DecidableEq, Repr

/-- One entry of the trace. -/
inductive Effect where
  /-- `xQueueSend` took the line. -/
  | taken (line : List UInt8)
  /-- The queue had no room for the line. -/
  | dropped (line : List UInt8)
  /-- `mesh_v2_node_send_log_line` was called. -/
  | v2 (line : List UInt8)
  /-- `keemash_mesh_transport_send` was called. -/
  | v1 (packet : List UInt8)
  /-- `send_logline_to_root` returned `ESP_OK` for a line from the queue. -/
  | delivered (line : List UInt8)
  /-- And for a report of dropped lines. -/
  | reported (lines : U32)
  deriving DecidableEq, Repr

structure LogStream where
  connected : Bool
  enabled : Bool
  counter : U32
  lastSendErr : EspErr
  lastTxOkMs : U32
  queue : List (List UInt8)
  captures : List Capture
  worker : Worker
  stats : Stats
  reportedOverflow : U32
  trace : List Effect

/-- What a send reads and what the calls in it return. -/
structure SendView where
  now : U32
  v2 : EspErr
  losslessNegotiated : Bool
  transport : EspErr
  localMac : Mac
  tag : List UInt8

def LogStream.emit (s : LogStream) (e : Effect) : LogStream :=
  { s with trace := s.trace ++ [e] }

/-! ## Sending -/

/-- A text in a field of `size` bytes, cut to leave room for its end. -/
def textField (text : List UInt8) (size : ℕ) : List UInt8 :=
  let kept := (cText text).take (size - 1)
  kept ++ List.replicate (size - kept.length) 0

/-- `mesh_log_line_packet_t`. -/
def logLinePacket (counter : U32) (mac : Mac) (tag line : List UInt8) : List UInt8 :=
  [0xA5, 1, 3, 0] ++ toLeBytes 4 counter ++ toLeBytes 6 mac ++ textField tag 16 ++
    textField line 192

/-- `record_send_result`. -/
def LogStream.recordSendResult (s : LogStream) (err : EspErr) (now : U32) : LogStream :=
  { s with
    lastSendErr := err
    lastTxOkMs := if err = .ok then now else s.lastTxOkMs }

/-- `send_logline_to_root`. -/
def LogStream.sendLogline (cfg : Config) (s : LogStream) (line : List UInt8)
    (view : SendView) : LogStream × EspErr :=
  if !s.connected then (s.recordSendResult .invalidState view.now, .invalidState)
  else
    let s := s.emit (.v2 line)
    if view.v2 = .ok then (s.recordSendResult .ok view.now, .ok)
    else if view.losslessNegotiated then (s.recordSendResult view.v2 view.now, view.v2)
    else if !cfg.preNegotiation then (s.recordSendResult view.v2 view.now, view.v2)
    else
      let counter := s.counter + 1
      let s := { s with counter := counter }.emit
        (.v1 (logLinePacket counter view.localMac view.tag line))
      (s.recordSendResult view.transport view.now, view.transport)

/-! ## Capturing -/

/-- The line that `capture_log_line` puts together from the time and the text of a call. -/
def captureLine (cfg : Config) (time text : List UInt8) : List UInt8 :=
  (time ++ text).take (cfg.lineMax - 1)

/-- `mesh_log_vprintf` of a task other than the worker, up to `capture_log_line`. -/
def LogStream.vprintf (cfg : Config) (s : LogStream) (time text : List UInt8) : LogStream :=
  if !s.enabled then s
  else { s with captures := s.captures ++ [.entered (captureLine cfg time text)] }

/-- The next step of a task inside `capture_log_line`. -/
def LogStream.capture (cfg : Config) (s : LogStream) (i : ℕ) : LogStream :=
  match s.captures[i]? with
  | none => s
  | some (.entered line) =>
      if s.queue.length < cfg.queueLen then
        { s with queue := s.queue ++ [line], captures := s.captures.set i .queued }.emit
          (.taken line)
      else { s with captures := s.captures.set i .refused }.emit (.dropped line)
  | some .queued =>
      { s with captures := s.captures.set i (.counted (BitVec.ofNat 32 s.queue.length)) }
  | some (.counted pending) =>
      { s with
        captures := s.captures.eraseIdx i
        stats :=
          { s.stats with
            captured := s.stats.captured + 1
            pending := pending
            highWatermark :=
              if pending > s.stats.highWatermark then pending else s.stats.highWatermark } }
  | some .refused =>
      { s with
        captures := s.captures.eraseIdx i
        stats := { s.stats with captureOverflow := s.stats.captureOverflow + 1 } }

/-! ## The worker -/

/-- The line that reports dropped lines. -/
def overflowLine (cfg : Config) (time : List UInt8) (lines : U32) : List UInt8 :=
  (time ++ ascii ("W (0) mesh_log: capture queue dropped " ++ toString lines.toNat ++
    " lines")).take (cfg.lineMax - 1)

/-- The next step of `log_worker_task`. -/
def LogStream.work (cfg : Config) (s : LogStream) (time : List UInt8) (view : SendView) :
    LogStream :=
  match s.worker with
  | .idle =>
      match s.queue with
      | [] => s
      | line :: rest => { s with queue := rest, worker := .sending line }
  | .sending line =>
      let sent := s.sendLogline cfg line view
      if sent.2 ≠ .ok then sent.1
      else { sent.1 with worker := .sent }.emit (.delivered line)
  | .sent => { s with worker := .counted (BitVec.ofNat 32 s.queue.length) }
  | .counted pending =>
      { s with
        worker := .reporting s.stats.captureOverflow
        stats := { s.stats with delivered := s.stats.delivered + 1, pending := pending } }
  | .reporting overflow =>
      if overflow = s.reportedOverflow then { s with worker := .idle }
      else
        let lines := overflow - s.reportedOverflow
        let sent := s.sendLogline cfg (overflowLine cfg time lines) view
        if sent.2 ≠ .ok then { sent.1 with worker := .idle }
        else { sent.1 with worker := .idle, reportedOverflow := overflow }.emit
          (.reported lines)

/-! ## The other entry points -/

/-- `keemash_mesh_log_stream_on_mesh_disconnected`. -/
def LogStream.disconnect (s : LogStream) : LogStream :=
  { s with connected := false, enabled := false, lastTxOkMs := 0 }

/-- `send_stream_status_to_root`. -/
def LogStream.sendStatus (cfg : Config) (s : LogStream) (time : List UInt8) (enabled : Bool)
    (view : SendView) : LogStream :=
  (s.sendLogline cfg ((time ++ ascii ("I (0) mesh_log: remote log stream " ++
    if enabled then "ready" else "disabled")).take 95) view).1

/-- `keemash_mesh_log_stream_handle_v1_ctrl` for a packet that is well formed, without the
NODEINFO that it sends. -/
def LogStream.ctrl (cfg : Config) (s : LogStream) (enable : Bool) (time : List UInt8)
    (view : SendView) : LogStream :=
  let s := { s with enabled := enable }
  if enable then s.sendStatus cfg time true view else s

/-- One step of the tasks. -/
inductive Action where
  | vprintf (time text : List UInt8)
  | capture (i : ℕ)
  | work (time : List UInt8) (view : SendView)
  | connect
  | disconnect
  | ctrl (enable : Bool) (time : List UInt8) (view : SendView)
  | clearTxAccepted

def LogStream.step (cfg : Config) (s : LogStream) : Action → LogStream
  | .vprintf time text => s.vprintf cfg time text
  | .capture i => s.capture cfg i
  | .work time view => s.work cfg time view
  | .connect => { s with connected := true }
  | .disconnect => s.disconnect
  | .ctrl enable time view => s.ctrl cfg enable time view
  | .clearTxAccepted => { s with lastTxOkMs := 0 }

/-- After `keemash_mesh_log_stream_init`. -/
def LogStream.init : LogStream where
  connected := false
  enabled := false
  counter := 0
  lastSendErr := .ok
  lastTxOkMs := 0
  queue := []
  captures := []
  worker := .idle
  stats := ⟨0, 0, 0, 0, 0⟩
  reportedOverflow := 0
  trace := []

end KeemashCore.MeshLog
