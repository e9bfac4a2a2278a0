import Ffdb.Lib.Framing
import Ffdb.Lib.Machine

/-! Calls that share one worker process: its two pipes, the lock on them, and what becomes of their bytes when a call
is dropped at any of its await points. -/
namespace Ffdb.DatabaseRouter
open Framing

/-- `MAX_WORKER_FRAME_BYTES` of the executor, which is `MAX_FRAME_BYTES` of the worker. -/
def maxFrameBytes : Nat := 9*1024*1024

/-- What a worker answers, and how requests and responses are written. `σ` is all that its answers depend on. -/
structure Worker (σ Request Response : Type) where
  handle : σ → Request → σ × Response
  encodeRequest : Request → List UInt8
  decodeRequest : List UInt8 → Option Request
  encodeResponse : Response → List UInt8
  decodeResponse : List UInt8 → Option Response
  decode_request : ∀ request, decodeRequest (encodeRequest request) = some request
  decode_response : ∀ response, decodeResponse (encodeResponse response) = some response
  response_ne_nil : ∀ response, encodeResponse response ≠ []

inductive Phase where
  | writing (left : List UInt8)
  | reading (received : List UInt8)

structure Holder (Call Request : Type) where
  call : Call
  request : Request
  phase : Phase

/-- A worker process with all that was written to its standard input and how much of its output was read. -/
structure WorkerProcess (Call Request Response : Type) where
  stdin : List UInt8
  taken : Nat
  holder : Option (Holder Call Request)
  /-- An exchange ended after its first byte and without its response. -/
  broken : Bool
  /-- The requests of the frames that were written whole. -/
  sent : List Request
  returned : List (Call × Request × Response)

variable {σ Request Response Call : Type}

namespace Worker
variable (worker : Worker σ Request Response)

/-- One turn of `serve_frames`. The worker ends without an answer when the response is too large for a frame. -/
def answer (s : σ) (payload : List UInt8) : Option (σ × List UInt8) := do
  let request ← worker.decodeRequest payload
  let reply := worker.encodeResponse (worker.handle s request).2
  if maxFrameBytes < reply.length then none else some ((worker.handle s request).1, reply)

def serveFrames (s : σ) (input : List UInt8) : List (List UInt8) × List UInt8 :=
  serve maxFrameBytes worker.answer s input

def responses : σ → List Request → List Response
  | _, [] => []
  | s, request :: rest => (worker.handle s request).2 :: responses (worker.handle s request).1 rest

def after (s : σ) (requests : List Request) : σ := requests.foldl (fun s request => (worker.handle s request).1) s

def frames (requests : List Request) : List UInt8 := requests.flatMap fun request => frame (worker.encodeRequest request)

def reply (s : σ) (request : Request) : List UInt8 := worker.encodeResponse (worker.handle s request).2

end Worker

namespace WorkerProcess
variable (worker : Worker σ Request Response) (start : σ) (process : WorkerProcess Call Request Response)

def spawn : WorkerProcess Call Request Response := ⟨[], 0, none, false, [], []⟩

def lock (call : Call) (request : Request) : WorkerProcess Call Request Response :=
  let payload := worker.encodeRequest request
  if process.holder.isSome ∨ payload = [] ∨ maxFrameBytes < payload.length then process
  else { process with holder := some ⟨call, request, .writing (frame payload)⟩ }

def write [DecidableEq Call] (call : Call) : WorkerProcess Call Request Response :=
  match process.holder with
  | some ⟨owner, request, .writing (byte :: left)⟩ =>
    if owner ≠ call then process
    else if left = [] then { process with
      stdin := process.stdin ++ [byte], sent := process.sent ++ [request], holder := some ⟨owner, request, .reading []⟩ }
    else { process with stdin := process.stdin ++ [byte], holder := some ⟨owner, request, .writing left⟩ }
  | _ => process

def read [DecidableEq Call] (call : Call) : WorkerProcess Call Request Response :=
  match process.holder, (worker.serveFrames start process.stdin).2[process.taken]? with
  | some ⟨owner, request, .reading received⟩, some byte =>
    let ended := { process with taken := process.taken+1, holder := none, broken := true }
    if owner ≠ call then process
    else match front maxFrameBytes (received ++ [byte]) with
      | .more => { process with
          taken := process.taken+1, holder := some ⟨owner, request, .reading (received ++ [byte])⟩ }
      | .invalid => ended
      | .payload payload _ =>
        match worker.decodeResponse payload with
        | none => ended
        | some response => { process with
            taken := process.taken+1, holder := none, returned := process.returned ++ [(owner, request, response)] }
  | _, _ => process

def drop [DecidableEq Call] (call : Call) : WorkerProcess Call Request Response :=
  match process.holder with
  | some ⟨owner, request, .writing left⟩ =>
    if owner ≠ call then process
    else { process with
      holder := none
      broken := process.broken || decide (left.length < (frame (worker.encodeRequest request)).length) }
  | some ⟨owner, _, .reading _⟩ => if owner ≠ call then process else { process with holder := none, broken := true }
  | none => process

end WorkerProcess

section Serving
variable {worker : Worker σ Request Response} {s : σ} {request : Request} {payload : List UInt8}

theorem maxFrameBytes_lt : maxFrameBytes < 256^4 := by decide

theorem Worker.answer_encode (s : σ) (request : Request) : worker.answer s (worker.encodeRequest request) =
    if maxFrameBytes < (worker.reply s request).length then none
    else some ((worker.handle s request).1, worker.reply s request) := by
  unfold answer
  rw [worker.decode_request]
  rfl

theorem Worker.serveFrames_append (hfits : Fits maxFrameBytes (worker.encodeRequest request))
    (hreply : ¬maxFrameBytes < (worker.reply s request).length) (rest : List UInt8) :
    worker.serveFrames s (frame (worker.encodeRequest request) ++ rest) =
      (worker.encodeRequest request :: (worker.serveFrames (worker.handle s request).1 rest).1,
        frame (worker.reply s request) ++ (worker.serveFrames (worker.handle s request).1 rest).2) := by
  refine serve_frame_append maxFrameBytes_lt hfits ?_ rest
  rw [answer_encode, if_neg hreply]

theorem Worker.serveFrames_nil : worker.serveFrames s [] = ([], []) := serve_of_more rfl

theorem Worker.serveFrames_frame (hfits : Fits maxFrameBytes (worker.encodeRequest request)) :
    worker.serveFrames s (frame (worker.encodeRequest request)) = ([worker.encodeRequest request],
      if maxFrameBytes < (worker.reply s request).length then [] else frame (worker.reply s request)) := by
  by_cases hreply : maxFrameBytes < (worker.reply s request).length
  · rw [if_pos hreply]
    refine serve_frame_of_none maxFrameBytes_lt hfits ?_
    rw [answer_encode, if_pos hreply]
  · rw [if_neg hreply, ← List.append_nil (frame (worker.encodeRequest request)), serveFrames_append hfits hreply,
      serveFrames_nil, List.append_nil]

theorem Worker.responses_concat (start : σ) (requests : List Request) (request : Request) :
    worker.responses start (requests ++ [request]) =
      worker.responses start requests ++ [(worker.handle (worker.after start requests) request).2] := by
  induction requests generalizing start with
  | nil => rfl
  | cons first rest ih =>
    rw [List.cons_append, responses, ih, responses]
    rfl

end Serving

def Settled (worker : Worker σ Request Response) (start : σ) (past : List Request) (replies : List UInt8) : Prop :=
  ∀ rest, worker.serveFrames start (worker.frames past ++ rest) =
    (past.map worker.encodeRequest ++ (worker.serveFrames (worker.after start past) rest).1,
      replies ++ (worker.serveFrames (worker.after start past) rest).2)

variable {worker : Worker σ Request Response} {start : σ} {past : List Request} {replies : List UInt8} {call : Call}
  {request : Request}

theorem Settled.snoc (h : Settled worker start past replies) (hfits : Fits maxFrameBytes (worker.encodeRequest request))
    (hreply : ¬maxFrameBytes < (worker.reply (worker.after start past) request).length) :
    Settled worker start (past ++ [request]) (replies ++ frame (worker.reply (worker.after start past) request)) := by
  intro rest
  have hframes : worker.frames (past ++ [request]) =
      worker.frames past ++ frame (worker.encodeRequest request) := by simp [Worker.frames]
  have hafter : worker.after start (past ++ [request]) =
      (worker.handle (worker.after start past) request).1 := by simp [Worker.after]
  rw [hframes, hafter, List.append_assoc, h, Worker.serveFrames_append hfits hreply, List.map_append, List.append_assoc,
    List.append_assoc]
  rfl

/-- The byte that a call reads is the next one of the reply to its own request. -/
theorem Settled.next_byte (h : Settled worker start past replies) {received rest : List UInt8} {byte : UInt8}
    (hfits : Fits maxFrameBytes (worker.encodeRequest request)) (hrest : rest ≠ [])
    (hsplit : frame (worker.reply (worker.after start past) request) = received ++ rest)
    (hbyte : (worker.serveFrames start (worker.frames past ++
      frame (worker.encodeRequest request))).2[replies.length+received.length]? = some byte) :
    ¬maxFrameBytes < (worker.reply (worker.after start past) request).length ∧
      ∃ rest', rest = byte :: rest' := by
  rw [h, Worker.serveFrames_frame hfits] at hbyte
  simp only at hbyte
  split at hbyte
  · rw [List.append_nil, List.getElem?_eq_none (by omega)] at hbyte
    cases hbyte
  · next hreply =>
    refine ⟨hreply, ?_⟩
    cases rest with
    | nil => exact absurd rfl hrest
    | cons first rest' =>
      rw [hsplit, List.getElem?_append_right (by omega), Nat.add_sub_cancel_left,
        List.getElem?_append_right (Nat.le_refl _), Nat.sub_self, List.getElem?_cons_zero] at hbyte
      cases hbyte
      exact ⟨rest', rfl⟩

namespace WorkerProcess
variable {process : WorkerProcess Call Request Response}

def requests (process : WorkerProcess Call Request Response) : List Request := process.returned.map (·.2.1)

/-- The worker decodes the frames that were sent and nothing else, and every response that was returned is the
worker's to the call's own request. -/
structure Faithful (worker : Worker σ Request Response) (start : σ) (process : WorkerProcess Call Request Response) :
    Prop where
  decoded : (worker.serveFrames start process.stdin).1 = process.sent.map worker.encodeRequest
  answered : process.requests <+: process.sent
  own : process.returned.map (·.2.2) = worker.responses start process.requests

/-- How far the exchange that holds the lock has come, with `replies` what was read in those before it. -/
def Stands (worker : Worker σ Request Response) (start : σ) (process : WorkerProcess Call Request Response)
    (replies : List UInt8) : Prop :=
  match process.holder with
  | none =>
    process.stdin = worker.frames process.requests ∧ process.taken = replies.length ∧ process.sent = process.requests
  | some ⟨_, request, .writing left⟩ =>
    Fits maxFrameBytes (worker.encodeRequest request) ∧ process.taken = replies.length ∧
      process.sent = process.requests ∧ left ≠ [] ∧ ∃ written, process.stdin = worker.frames process.requests ++ written ∧
        frame (worker.encodeRequest request) = written ++ left
  | some ⟨_, request, .reading received⟩ =>
    Fits maxFrameBytes (worker.encodeRequest request) ∧ process.taken = replies.length+received.length ∧
      process.sent = process.requests ++ [request] ∧
      process.stdin = worker.frames process.requests ++ frame (worker.encodeRequest request) ∧
      ∃ rest, rest ≠ [] ∧ frame (worker.reply (worker.after start process.requests) request) = received ++ rest

def Aligned (worker : Worker σ Request Response) (start : σ) (process : WorkerProcess Call Request Response) : Prop :=
  ∃ replies, Settled worker start process.requests replies ∧
    process.returned.map (·.2.2) = worker.responses start process.requests ∧ process.Stands worker start replies

/-- A process on which no exchange was broken off, or one that no call has the lock of any more. -/
def Sound (worker : Worker σ Request Response) (start : σ) (process : WorkerProcess Call Request Response) : Prop :=
  process.Faithful worker start ∧
    (process.broken = false ∧ process.Aligned worker start ∨ process.broken = true ∧ process.holder = none)

theorem Aligned.faithful (h : process.Aligned worker start) : process.Faithful worker start := by
  obtain ⟨replies, hsettled, hown, hstands⟩ := h
  unfold Stands at hstands
  split at hstands
  · obtain ⟨hstdin, -, hsent⟩ := hstands
    refine ⟨?_, hsent ▸ List.prefix_rfl, hown⟩
    rw [hstdin, ← List.append_nil (worker.frames _), hsettled, Worker.serveFrames_nil, hsent, List.append_nil]
  · obtain ⟨hfits, -, hsent, hleft, written, hstdin, hsplit⟩ := hstands
    refine ⟨?_, hsent ▸ List.prefix_rfl, hown⟩
    have hnone : worker.serveFrames (worker.after start process.requests) written = ([], []) :=
      serve_of_more (front_of_append maxFrameBytes_lt hfits hsplit hleft)
    rw [hstdin, hsettled, hnone, hsent, List.append_nil]
  · obtain ⟨hfits, -, hsent, hstdin, -⟩ := hstands
    refine ⟨?_, hsent ▸ List.prefix_append _ _, hown⟩
    rw [hstdin, hsettled, Worker.serveFrames_frame hfits, hsent, List.map_append]
    rfl

theorem Aligned.sound (hbroken : process.broken = false) (h : process.Aligned worker start) :
    process.Sound worker start := ⟨h.faithful, .inl ⟨hbroken, h⟩⟩

theorem sound_spawn : (spawn : WorkerProcess Call Request Response).Sound worker start :=
  Aligned.sound rfl ⟨[], fun _ => rfl, rfl, rfl, rfl, rfl⟩

theorem Sound.aligned (h : process.Sound worker start) {holder : Holder Call Request}
    (hholder : process.holder = some holder) : process.broken = false ∧ process.Aligned worker start := by
  obtain ⟨-, haligned | ⟨-, hfree⟩⟩ := h
  · exact haligned
  · rw [hholder] at hfree
    cases hfree

theorem Sound.lock (h : process.Sound worker start) (hunbroken : process.broken = false) :
    (process.lock worker call request).Sound worker start := by
  obtain ⟨-, ⟨-, replies, hsettled, hown, hstands⟩ | ⟨hbroken, -⟩⟩ := id h
  · unfold WorkerProcess.lock
    simp only
    split
    · exact h
    · next hlock =>
      simp only [not_or, Bool.not_eq_true, Option.isSome_eq_false_iff, Option.isNone_iff_eq_none] at hlock
      obtain ⟨hfree, hne, hlength⟩ := hlock
      simp only [Stands, hfree] at hstands
      obtain ⟨hstdin, htaken, hsent⟩ := hstands
      exact Aligned.sound hunbroken ⟨replies, hsettled, hown, ⟨hne, not_lt.mp hlength⟩, htaken, hsent, frame_ne_nil _, [],
        hstdin.trans (List.append_nil _).symm, rfl⟩
  · rw [hunbroken] at hbroken
    cases hbroken

theorem Sound.write [DecidableEq Call] (h : process.Sound worker start) : (process.write call).Sound worker start := by
  unfold WorkerProcess.write
  split
  · next owner request byte left hholder =>
    split
    · exact h
    · obtain ⟨hunbroken, replies, hsettled, hown, hstands⟩ := h.aligned hholder
      simp only [Stands, hholder] at hstands
      obtain ⟨hfits, htaken, hsent, -, written, hstdin, hsplit⟩ := hstands
      split
      · next hlast =>
        subst hlast
        refine Aligned.sound hunbroken ⟨replies, hsettled, hown, hfits, htaken, congrArg (· ++ [request]) hsent, ?_, _,
          frame_ne_nil _, rfl⟩
        rw [hsplit, hstdin, List.append_assoc]
        rfl
      · next hmore =>
        refine Aligned.sound hunbroken ⟨replies, hsettled, hown, hfits, htaken, hsent, hmore, written ++ [byte], ?_, ?_⟩
        · rw [hstdin, List.append_assoc]
          rfl
        · rw [hsplit, List.append_assoc]
          rfl
  · exact h

theorem Sound.read [DecidableEq Call] (h : process.Sound worker start) : (process.read worker start call).Sound worker start := by
  unfold WorkerProcess.read
  split
  · next owner request received byte hholder hbyte =>
    simp only
    split
    · exact h
    · obtain ⟨hunbroken, replies, hsettled, hown, hstands⟩ := h.aligned hholder
      simp only [Stands, hholder] at hstands
      obtain ⟨hfits, htaken, hsent, hstdin, rest, hrest, hsplit⟩ := hstands
      rw [hstdin, htaken] at hbyte
      obtain ⟨hreply, rest', rfl⟩ := hsettled.next_byte hfits hrest hsplit hbyte
      have hfits' : Fits maxFrameBytes (worker.reply (worker.after start process.requests) request) :=
        ⟨worker.response_ne_nil _, not_lt.mp hreply⟩
      have hsplit' : frame (worker.reply (worker.after start process.requests) request) =
          (received ++ [byte]) ++ rest' := by
        rw [hsplit, List.append_assoc]
        rfl
      cases rest' with
      | nil =>
        -- The last byte of the reply.
        rw [List.append_nil] at hsplit'
        have hfront := front_frame_append maxFrameBytes_lt hfits' []
        rw [List.append_nil, hsplit'] at hfront
        simp only [hfront]
        have hdecode := worker.decode_response (worker.handle (worker.after start process.requests) request).2
        rw [← Worker.reply] at hdecode
        simp only [hdecode]
        refine Aligned.sound hunbroken ⟨replies ++ frame (worker.reply (worker.after start process.requests) request), ?_,
          ?_, ?_, ?_, ?_⟩
        · simpa [requests] using hsettled.snoc hfits hreply
        · simpa [requests, Worker.responses_concat] using hown
        · simp [Worker.frames, requests, hstdin]
        · rw [List.length_append, hsplit, htaken]
          simp [Nat.add_assoc]
        · simp [requests, hsent]
      | cons next rest' =>
        have hfront := front_of_append maxFrameBytes_lt hfits' hsplit' (by simp)
        simp only [hfront]
        refine Aligned.sound hunbroken ⟨replies, hsettled, hown, hfits, ?_, hsent, hstdin, next :: rest', by simp, hsplit'⟩
        simp [htaken, Nat.add_assoc]
  · exact h

theorem Sound.drop [DecidableEq Call] (h : process.Sound worker start) : (process.drop worker call).Sound worker start := by
  unfold WorkerProcess.drop
  obtain ⟨hdecoded, hanswered, hown⟩ := h.1
  split
  · next owner request left hholder =>
    split
    · exact h
    · obtain ⟨hunbroken, replies, hsettled, hown, hstands⟩ := h.aligned hholder
      simp only [Stands, hholder] at hstands
      obtain ⟨-, htaken, hsent, -, written, hstdin, hsplit⟩ := hstands
      by_cases hbegun : left.length < (frame (worker.encodeRequest request)).length
      · exact ⟨⟨hdecoded, hanswered, hown⟩, .inr ⟨by simp [hbegun], rfl⟩⟩
      · have hnone : written = [] := by
          rw [hsplit, List.length_append] at hbegun
          exact List.length_eq_zero_iff.mp (by omega)
        refine Aligned.sound (by simp [hbegun, hunbroken]) ⟨replies, hsettled, hown, ?_, htaken, hsent⟩
        rw [hnone, List.append_nil] at hstdin
        exact hstdin
  · split
    · exact h
    · exact ⟨⟨hdecoded, hanswered, hown⟩, .inr ⟨rfl, rfl⟩⟩
  · exact h

end WorkerProcess

/-- The executor's processes for one database and generation: the one in its pool, and those that calls still hold. -/
structure Executor (Call Request Response : Type) where
  processes : Nat → WorkerProcess Call Request Response
  spawned : Nat
  entry : Option Nat
  holds : Call → Option Nat

inductive Event (Call Request : Type) where
  /-- `worker_for` -/
  | resolve (call : Call)
  /-- The pool's entry goes: by `evict`, for its age, or for another generation. -/
  | retire
  | lock (call : Call) (request : Request)
  | write (call : Call)
  | read (call : Call)
  | drop (call : Call)

namespace Executor
variable [DecidableEq Call] (worker : Worker σ Request Response) (start : Nat → σ)
  (executor : Executor Call Request Response)

def new : Executor Call Request Response := ⟨fun _ => .spawn, 0, none, fun _ => none⟩

def onProcess (call : Call) (f : Nat → WorkerProcess Call Request Response → WorkerProcess Call Request Response) :
    Executor Call Request Response :=
  match executor.holds call with
  | none => executor
  | some n => { executor with processes := Function.update executor.processes n (f n (executor.processes n)) }

def step : Event Call Request → Executor Call Request Response
  | .resolve call =>
    match executor.entry with
    | some n => { executor with holds := Function.update executor.holds call (some n) }
    | none => { executor with
        spawned := executor.spawned+1, entry := some executor.spawned
        holds := Function.update executor.holds call (some executor.spawned) }
  | .retire => { executor with entry := none }
  | .lock call request => executor.onProcess call fun _ process => process.lock worker call request
  | .write call => executor.onProcess call fun _ process => process.write call
  | .read call => executor.onProcess call fun n process => process.read worker (start n) call
  | .drop call => executor.onProcess call fun _ process => process.drop worker call

abbrev run (events : List (Event Call Request)) : Executor Call Request Response :=
  Machine.run (step worker start) new events

def admits (n : Nat) : Event Call Request → Bool
  | .lock call _ => executor.holds call ≠ some n || !(executor.processes n).broken
  | _ => true

variable {worker start executor}

omit [DecidableEq Call] in
theorem onProcess_sound {n : Nat} {call : Call}
    {f : Nat → WorkerProcess Call Request Response → WorkerProcess Call Request Response}
    (h : (executor.processes n).Sound worker (start n))
    (hf : executor.holds call = some n → (f n (executor.processes n)).Sound worker (start n)) :
    ((executor.onProcess call f).processes n).Sound worker (start n) := by
  unfold onProcess
  split
  · exact h
  · next m hheld =>
    by_cases hn : n = m
    · subst hn
      simpa using hf hheld
    · simpa [Function.update_of_ne hn] using h

theorem step_sound {n : Nat} (event : Event Call Request) (hadmitted : executor.admits n event = true)
    (h : (executor.processes n).Sound worker (start n)) :
    ((executor.step worker start event).processes n).Sound worker (start n) := by
  cases event with
  | resolve call =>
    cases hentry : executor.entry <;> simpa only [step, hentry] using h
  | retire => exact h
  | lock call request =>
    refine onProcess_sound h fun hheld => h.lock ?_
    simpa [admits, hheld] using hadmitted
  | write call => exact onProcess_sound h fun _ => h.write
  | read call => exact onProcess_sound h fun _ => h.read
  | drop call => exact onProcess_sound h fun _ => h.drop

omit [DecidableEq Call] in
theorem onProcess_pool (call : Call)
    (f : Nat → WorkerProcess Call Request Response → WorkerProcess Call Request Response) :
    (executor.onProcess call f).spawned = executor.spawned ∧ (executor.onProcess call f).entry = executor.entry ∧
      (executor.onProcess call f).holds = executor.holds := by
  unfold onProcess
  split <;> exact ⟨rfl, rfl, rfl⟩

variable (worker start) in
/-- What an event does to the pool: calls get the process of its entry, and a new entry is a new process. -/
theorem step_pool (executor : Executor Call Request Response) (event : Event Call Request) :
    executor.spawned ≤ (executor.step worker start event).spawned ∧
    (∀ n, (executor.step worker start event).entry = some n →
      executor.entry = some n ∨ n = executor.spawned ∧ n < (executor.step worker start event).spawned) ∧
    ∀ call n, (executor.step worker start event).holds call = some n →
      executor.holds call = some n ∨ (executor.step worker start event).entry = some n := by
  cases event with
  | resolve call =>
    cases hentry : executor.entry <;> simp only [step, hentry, Function.update_apply] <;> grind
  | retire => simp [step]
  | _ => simp +contextual [step, onProcess_pool]

end Executor

/-- A process that left the pool is kept by the calls that had it, and no other call ever gets it. -/
theorem retired_process_kept [DecidableEq Call] (worker : Worker σ Request Response) (start : Nat → σ)
    (before after : List (Event Call Request)) (n : Nat) (hentry : (Executor.run worker start before).entry = some n)
    (call : Call) (hholds : (Executor.run worker start (before ++ .retire :: after)).holds call = some n) :
    (Executor.run worker start before).holds call = some n := by
  have hspawned : ∀ n, (Executor.run worker start before).entry = some n →
      n < (Executor.run worker start before).spawned := by
    refine Machine.run_preserves (P := fun executor : Executor Call Request Response =>
      ∀ n, executor.entry = some n → n < executor.spawned) (fun executor event h n hn => ?_) _ before (by simp [Executor.new])
    obtain ⟨hmore, hpool, -⟩ := executor.step_pool worker start event
    obtain hsame | ⟨-, hnew⟩ := hpool n hn
    · exact (h n hsame).trans_le hmore
    · exact hnew
  rw [Executor.run, Machine.run_append] at hholds
  refine (Machine.run_preserves (P := fun executor : Executor Call Request Response => n < executor.spawned ∧
    executor.entry ≠ some n ∧ (executor.holds call = some n → (Executor.run worker start before).holds call = some n))
    (fun executor event h => ?_) (Executor.step worker start (Executor.run worker start before) .retire) after
    ⟨hspawned n hentry, by simp [Executor.step], id⟩).2.2 hholds
  obtain ⟨hmore, hpool, hheld⟩ := executor.step_pool worker start event
  have hgone : (executor.step worker start event).entry ≠ some n := by
    intro hn
    obtain hsame | ⟨hnew, -⟩ := hpool n hn
    · exact h.2.1 hsame
    · omega
  exact ⟨h.1.trans_le hmore, hgone, fun hcall => (hheld call n hcall).elim h.2.2 fun hn => absurd hn hgone⟩

/-- Replies belong to their requests on a process as long as no call starts on it after an exchange was broken off,
wherever calls are dropped otherwise and whatever becomes of the other processes. -/
theorem replies_belong [DecidableEq Call] (worker : Worker σ Request Response) (start : Nat → σ)
    (events : List (Event Call Request)) (n : Nat)
    (h : ∀ before event after, events = before ++ event :: after →
      (Executor.run worker start before).admits n event = true) :
    ((Executor.run worker start events).processes n).Faithful worker (start n) :=
  (Machine.run_preserves_at
    (P := fun executor : Executor Call Request Response => (executor.processes n).Sound worker (start n))
    (fun _ event hadmitted hsound => Executor.step_sound event hadmitted hsound) Executor.new events h
    WorkerProcess.sound_spawn).1

def echo : Worker Unit UInt8 UInt8 where
  handle _ request := ((), request)
  encodeRequest request := [request]
  decodeRequest := List.head?
  encodeResponse response := [response]
  decodeResponse := List.head?
  decode_request _ := rfl
  decode_response _ := rfl
  response_ne_nil _ := by simp

/-- Call 0 is dropped while it waits for its reply and call 1, which holds the same process, goes on. -/
def droppedWhileWaiting : List (Event Nat UInt8) :=
  [.resolve 0, .resolve 1, .lock 0 7] ++ List.replicate 5 (.write 0) ++ [.drop 0, .retire, .lock 1 8] ++
    List.replicate 5 (.write 1) ++ List.replicate 5 (.read 1)

abbrev echoed (events : List (Event Nat UInt8)) : WorkerProcess Nat UInt8 UInt8 :=
  (Executor.run echo (fun _ => ()) events).processes 0

/-- The other call gets the reply to the request of the call that was dropped. -/
theorem reply_of_other_call :
    (echoed droppedWhileWaiting).returned = [(1, 8, 7)] ∧ ¬(echoed droppedWhileWaiting).Faithful echo () := by
  have hreturned : (echoed droppedWhileWaiting).returned = [(1, 8, 7)] := by decide +kernel
  refine ⟨hreturned, fun h => ?_⟩
  have hown := h.own
  rw [WorkerProcess.requests, hreturned] at hown
  exact absurd hown (by decide)

def droppedBeforeWriting : List (Event Nat UInt8) :=
  [.resolve 0, .resolve 1, .lock 0 7, .drop 0, .lock 1 8] ++ List.replicate 5 (.write 1) ++ List.replicate 5 (.read 1)

theorem returned_echo : (echoed droppedBeforeWriting).returned = [(1, 8, 8)] ∧
    (echoed droppedBeforeWriting).Faithful echo () := by
  refine ⟨by decide +kernel, replies_belong echo (fun _ => ()) droppedBeforeWriting 0 ?_⟩
  exact Machine.forall_point_of_take (by decide +kernel)

theorem first_process_kept : (Executor.run echo (fun _ => ()) [.resolve 0]).holds 0 = some 0 :=
  retired_process_kept echo (fun _ => ()) [.resolve 0] [.resolve 1] 0 rfl 0 rfl

end Ffdb.DatabaseRouter
