import Nethuns.Api.Socket
import Nethuns.Lib.Run

/-!
# The packet forwarder with two threads

In `run_queue` the one thread receives tokens and pushes them to a ring; it retries while the ring
is full. The other thread pops them, consumes them through a context of its own, and sends and
flushes one packet at a time; a packet whose send fails is dropped. Both read the flag of Ctrl-C
before they receive or pop, and the first thread waits for the second one at the end.

Each call on a socket is one step here, and so is each operation on the ring; the threads and the
surroundings of the sockets take their steps in any order. The tokens of the program are named by
numbers, in the order in which they were received. The totals that are printed each second are
left out.
-/

namespace Nethuns.Examples

open Nethuns.Lib Nethuns.Api

universe u v

/-- Where the thread that receives is: before a receive, with a token to push, waiting for the
other thread, or at the end. -/
inductive ProducerPc
  | receiving
  | pushing (token : ℕ)
  | joining
  | finished
deriving DecidableEq

/-- Where the thread that sends is: before a pop, with a token, before the send of its payload,
before a flush, before the payload is dropped, or at the end. -/
inductive ConsumerPc
  | polling
  | popped (token : ℕ)
  | sending
  | flushing
  | releasing
  | finished
deriving DecidableEq

structure ForwarderMt (Sock : Type u) where
  inSocket : Sock
  outSocket : Sock
  ring : List ℕ
  ringSize : ℕ
  /-- The tokens that are not consumed yet, in the order of the socket. -/
  live : List ℕ
  issued : ℕ
  /-- The packets taken from the ring so far, and whether they were sent. -/
  outcomes : List (List UInt8 × Bool)
  producer : ProducerPc
  consumer : ConsumerPc
  term : Bool

/-- A step of a thread, Ctrl-C, or a step of the surroundings of a socket. -/
inductive ForwardMtAction (Env : Type v)
  | producer (env : Env)
  | consumer (env : Env)
  | interrupt
  | input (env : Env)
  | output (env : Env)

namespace ForwarderMt

variable {Sock : Type u} {Env : Type v}

/-- The forwarder when its threads start, with the context cloned for the second one; the clone is
the context 1. -/
def new (backend : Implementation Sock Env) (inSocket outSocket : Sock) (ringSize : ℕ) :
    Option (ForwarderMt Sock) :=
  (backend.call inSocket (.cloneCtx 0)).map fun (_, sock) =>
    { inSocket := sock
      outSocket := outSocket
      ring := []
      ringSize := ringSize
      live := []
      issued := 0
      outcomes := []
      producer := .receiving
      consumer := .polling
      term := false }

/-- One step of the thread that receives. -/
def producerStep (backend : Implementation Sock Env) (state : ForwarderMt Sock) (env : Env) :
    Option (ForwarderMt Sock) :=
  match state.producer with
  | .receiving =>
      if state.term then
        some { state with producer := .joining }
      else
        (backend.call state.inSocket (.recvToken env)).map fun (result, sock) =>
          match result with
          | .ok () =>
              { state with
                inSocket := sock
                live := state.live ++ [state.issued]
                issued := state.issued + 1
                producer := .pushing state.issued }
          | .error _ => { state with inSocket := sock }
  | .pushing token =>
      if state.ring.length < state.ringSize then
        some { state with ring := state.ring ++ [token], producer := .receiving }
      else
        some state
  | .joining =>
      if state.consumer = .finished then some { state with producer := .finished } else none
  | .finished => none

/-- One step of the thread that sends. -/
def consumerStep (backend : Implementation Sock Env) (state : ForwarderMt Sock) (env : Env) :
    Option (ForwarderMt Sock) :=
  match state.consumer with
  | .polling =>
      if state.term then
        some { state with consumer := .finished }
      else
        match state.ring with
        | [] => some state
        | token :: ring => some { state with ring := ring, consumer := .popped token }
  | .popped token =>
      (backend.call state.inSocket (.consume (state.live.idxOf token) 1)).map fun (_, sock) =>
        { state with inSocket := sock, live := state.live.erase token, consumer := .sending }
  | .sending =>
      (backend.payloads state.inSocket)[0]?.bind fun packet =>
        (backend.call state.outSocket (.send packet env)).map fun (result, sock) =>
          match result with
          | .ok () =>
              { state with
                outSocket := sock
                outcomes := state.outcomes ++ [(packet, true)]
                consumer := .flushing }
          | .error _ =>
              { state with
                outSocket := sock
                outcomes := state.outcomes ++ [(packet, false)]
                consumer := .releasing }
  | .flushing =>
      (backend.call state.outSocket (.flush env)).map fun (_, sock) =>
        { state with outSocket := sock, consumer := .releasing }
  | .releasing =>
      (backend.call state.inSocket (.dropPayload 0 env)).map fun (_, sock) =>
        { state with inSocket := sock, consumer := .polling }
  | .finished => none

/-- One step; `none` when it panics, or when the thread is blocked or has ended. -/
def step (backend : Implementation Sock Env) (state : ForwarderMt Sock) :
    ForwardMtAction Env → Option (ForwarderMt Sock)
  | .producer env => state.producerStep backend env
  | .consumer env => state.consumerStep backend env
  | .interrupt => some { state with term := true }
  | .input env =>
      (backend.call state.inSocket (.surroundings env)).map fun (_, sock) =>
        { state with inSocket := sock }
  | .output env =>
      (backend.call state.outSocket (.surroundings env)).map fun (_, sock) =>
        { state with outSocket := sock }

/-- The calls that a step makes are served. -/
def Serves (backend : Implementation Sock Env) (Served : Sock → Call Env → Prop)
    (state : ForwarderMt Sock) : ForwardMtAction Env → Prop
  | .producer env =>
      state.producer = .receiving → state.term = false → Served state.inSocket (.recvToken env)
  | .consumer env =>
      match state.consumer with
      | .popped token => Served state.inSocket (.consume (state.live.idxOf token) 1)
      | .sending => ∀ packet, (backend.payloads state.inSocket)[0]? = some packet →
          Served state.outSocket (.send packet env)
      | .flushing => Served state.outSocket (.flush env)
      | .releasing => Served state.inSocket (.dropPayload 0 env)
      | .polling | .finished => True
  | .interrupt => True
  | .input env => Served state.inSocket (.surroundings env)
  | .output env => Served state.outSocket (.surroundings env)

/-- The token in the hands of the thread that sends. -/
def poppedTokens (state : ForwarderMt Sock) : List ℕ :=
  match state.consumer with
  | .popped token => [token]
  | _ => []

/-- The token in the hands of the thread that receives. -/
def pushedTokens (state : ForwarderMt Sock) : List ℕ :=
  match state.producer with
  | .pushing token => [token]
  | _ => []

/-- The packet that was taken from the ring, and whose send was not tried yet. -/
def current (backend : Implementation Sock Env) (state : ForwarderMt Sock) : List (List UInt8) :=
  match state.consumer with
  | .sending => backend.payloads state.inSocket
  | _ => []

/-- How many payloads the program holds. -/
def holding (state : ForwarderMt Sock) : ℕ :=
  match state.consumer with
  | .sending | .flushing | .releasing => 1
  | .polling | .popped _ | .finished => 0

/-- The packets taken from the ring whose send succeeded. -/
def succeeded (state : ForwarderMt Sock) : List (List UInt8) :=
  (state.outcomes.filter Prod.snd).map Prod.fst

/-- What has been received is what was taken from the ring, and what is behind the tokens, which
are in the hands of the one thread, in the ring, and in the hands of the other thread. -/
structure Sound (backend : Implementation Sock Env) (view : Sock → View) (Good : Sock → Prop)
    (state : ForwarderMt Sock) : Prop where
  inGood : Good state.inSocket
  outGood : Good state.outSocket
  stream : (view state.inSocket).received = state.outcomes.map Prod.fst ++
    state.current backend ++ (view state.inSocket).tokens
  sent : (view state.outSocket).sent = state.succeeded
  live : state.live = state.poppedTokens ++ state.ring ++ state.pushedTokens
  tokens : (view state.inSocket).tokens.length = state.live.length
  payloads : (view state.inSocket).payloads.length = state.holding
  bounded : state.ring.length ≤ state.ringSize

section Sound

variable {backend : Implementation Sock Env} {view : Sock → View} {Good : Sock → Prop}
  {Served : Sock → Call Env → Prop} {state next : ForwarderMt Sock} {env : Env}
  {action : ForwardMtAction Env} {actions : List (ForwardMtAction Env)} {sock : Sock}

theorem current_of_payloads (same : next.consumer = state.consumer)
    (payloads : backend.payloads next.inSocket = backend.payloads state.inSocket) :
    next.current backend = state.current backend := by
  simp only [current, same, payloads]

/-- A step that changes neither view, nor who holds which token. -/
theorem Sound.of_views (sound : state.Sound backend view Good) (inGood : Good next.inSocket)
    (outGood : Good next.outSocket) (inSeen : view next.inSocket = view state.inSocket)
    (outSeen : view next.outSocket = view state.outSocket)
    (kept : next.live = state.live ∧ next.ring = state.ring ∧ next.ringSize = state.ringSize ∧
      next.outcomes = state.outcomes)
    (phase : next.poppedTokens = state.poppedTokens ∧ next.pushedTokens = state.pushedTokens ∧
      next.holding = state.holding)
    (current : next.current backend = state.current backend) : next.Sound backend view Good := by
  rcases kept with ⟨live, ring, ringSize, outcomes⟩
  rcases phase with ⟨popped, pushed, holding⟩
  refine ⟨inGood, outGood, ?_, ?_, ?_, ?_, ?_, ?_⟩
  · rw [inSeen, outcomes, current, sound.stream]
  · rw [outSeen, sound.sent, succeeded, succeeded, outcomes]
  · rw [live, popped, ring, pushed, sound.live]
  · rw [inSeen, live, sound.tokens]
  · rw [inSeen, holding, sound.payloads]
  · rw [ring, ringSize]
    exact sound.bounded

/-! ## The thread that receives -/

theorem Sound.received {packet : List UInt8} (refines : backend.Refines view Good Served)
    (sound : state.Sound backend view Good) (receiving : state.producer = .receiving)
    (good : Good sock)
    (seen : view sock = (view state.inSocket).after packet (@Call.recvToken Env env) (.ok ())) :
    Sound backend view Good { state with
      inSocket := sock
      live := state.live ++ [state.issued]
      issued := state.issued + 1
      producer := .pushing state.issued } := by
  rcases sound with ⟨-, outGood, stream, sent, live, tokens, payloads, bounded⟩
  simp only [View.after] at seen
  simp only [current, refines.payloads] at stream
  refine ⟨good, outGood, ?_, sent, ?_, ?_, ?_, bounded⟩
  · simp only [current, refines.payloads, seen, stream, List.append_assoc]
  · simp only [pushedTokens, receiving, List.append_nil] at live
    simp only [pushedTokens, poppedTokens, live]
  · simp only [seen, List.length_append, tokens, List.length_singleton]
  · simp only [seen, payloads, holding]

theorem Sound.pushed {token : ℕ} (sound : state.Sound backend view Good)
    (pushing : state.producer = .pushing token) (room : state.ring.length < state.ringSize) :
    Sound backend view Good
      { state with ring := state.ring ++ [token], producer := .receiving } := by
  rcases sound with ⟨inGood, outGood, stream, sent, live, tokens, payloads, bounded⟩
  refine ⟨inGood, outGood, stream, sent, ?_, tokens, payloads, ?_⟩
  · simp only [pushedTokens, pushing] at live
    simp only [live, poppedTokens, pushedTokens, List.append_assoc, List.append_nil]
  · rw [List.length_append, List.length_singleton]
    exact room

theorem producerStep_sound (refines : backend.Refines view Good Served)
    (sound : state.Sound backend view Good)
    (serves : state.Serves backend Served (.producer env))
    (stepped : state.producerStep backend env = some next) : next.Sound backend view Good := by
  cases pc : state.producer with
  | receiving =>
      simp only [producerStep, pc] at stepped
      split at stepped
      · rw [Option.some.injEq] at stepped
        subst next
        refine sound.of_views sound.inGood sound.outGood rfl rfl ⟨rfl, rfl, rfl, rfl⟩
          ⟨rfl, ?_, rfl⟩ rfl
        simp only [pushedTokens, pc]
      · rename_i running
        simp only [Option.map_eq_some_iff] at stepped
        rcases stepped with ⟨⟨result, sock⟩, received, rfl⟩
        rcases refines.step sound.inGood (serves pc (by simpa using running)) received with
          ⟨good, -, packet, seen⟩
        cases result with
        | ok => exact sound.received refines pc good seen
        | error error =>
            have same : view sock = view state.inSocket := seen
            refine sound.of_views good sound.outGood same rfl ⟨rfl, rfl, rfl, rfl⟩
              ⟨rfl, ?_, rfl⟩ (current_of_payloads rfl ?_)
            · simp only [pushedTokens, pc]
            · rw [refines.payloads, refines.payloads, same]
  | pushing token =>
      simp only [producerStep, pc] at stepped
      split at stepped
      · rename_i room
        rw [Option.some.injEq] at stepped
        exact stepped ▸ sound.pushed pc room
      · rw [Option.some.injEq] at stepped
        exact stepped ▸ sound
  | joining =>
      simp only [producerStep, pc, Option.ite_none_right_eq_some, Option.some.injEq] at stepped
      rcases stepped with ⟨-, rfl⟩
      refine sound.of_views sound.inGood sound.outGood rfl rfl ⟨rfl, rfl, rfl, rfl⟩
        ⟨rfl, ?_, rfl⟩ rfl
      simp only [pushedTokens, pc]
  | finished => simp [producerStep, pc] at stepped

/-! ## The thread that sends -/

theorem Sound.popped {token : ℕ} {ring : List ℕ} (sound : state.Sound backend view Good)
    (polling : state.consumer = .polling) (filled : state.ring = token :: ring) :
    Sound backend view Good { state with ring := ring, consumer := .popped token } := by
  rcases sound with ⟨inGood, outGood, stream, sent, live, tokens, payloads, bounded⟩
  simp only [current, polling] at stream
  simp only [poppedTokens, polling, filled] at live
  simp only [holding, polling] at payloads
  simp only [filled, List.length_cons] at bounded
  refine ⟨inGood, outGood, stream, sent, live, tokens, payloads, Nat.le_of_succ_le bounded⟩

theorem Sound.consumed {token : ℕ} {packet : List UInt8}
    (refines : backend.Refines view Good Served) (sound : state.Sound backend view Good)
    (popped : state.consumer = .popped token) (good : Good sock)
    (seen : view sock = (view state.inSocket).after packet
      (@Call.consume Env (state.live.idxOf token) 1) (.ok ())) :
    Sound backend view Good
      { state with
        inSocket := sock
        live := state.live.erase token
        consumer := .sending } := by
  rcases sound with ⟨-, outGood, stream, sent, live, tokens, payloads, bounded⟩
  simp only [current, popped, List.append_nil] at stream
  simp only [poppedTokens, popped, List.cons_append] at live
  simp only [holding, popped, List.length_eq_zero_iff] at payloads
  rw [live, List.length_cons] at tokens
  rcases List.exists_cons_of_length_eq_add_one tokens with ⟨first, others, split⟩
  simp only [View.after, live, List.idxOf_cons_self, split, payloads, List.eraseIdx_zero,
    List.tail_cons, List.getElem?_cons_zero, Option.toList_some, List.nil_append] at seen
  refine ⟨good, outGood, ?_, sent, ?_, ?_, ?_, bounded⟩
  · simp only [current, refines.payloads, seen, stream, split, List.append_assoc,
      List.singleton_append]
  · simp only [live, List.erase_cons_head, poppedTokens, List.nil_append, pushedTokens]
  · simp only [seen, live, List.erase_cons_head]
    simpa only [split, List.length_cons, Nat.add_right_cancel_iff] using tokens
  · simp only [seen, holding, List.length_singleton]

/-- The packet of a send was received through the other socket, whatever comes of the send. -/
theorem Sound.tried {packet other : List UInt8} {result : Except Error Unit}
    (refines : backend.Refines view Good Served) (sound : state.Sound backend view Good)
    (sending : state.consumer = .sending)
    (present : (backend.payloads state.inSocket)[0]? = some packet) (good : Good sock)
    (seen : view sock =
      (view state.outSocket).after other (@Call.send Env packet env) result) :
    (result = .ok () → Sound backend view Good
        { state with
          outSocket := sock
          outcomes := state.outcomes ++ [(packet, true)]
          consumer := .flushing }) ∧
      (result ≠ .ok () → Sound backend view Good
        { state with
          outSocket := sock
          outcomes := state.outcomes ++ [(packet, false)]
          consumer := .releasing }) := by
  rcases sound with ⟨inGood, -, stream, sent, live, tokens, payloads, bounded⟩
  simp only [holding, sending, List.length_eq_one_iff] at payloads
  rcases payloads with ⟨held, payloads⟩
  simp only [refines.payloads, payloads, List.getElem?_cons_zero, Option.some.injEq] at present
  simp only [current, sending, refines.payloads, payloads, present] at stream
  simp only [poppedTokens, sending] at live
  constructor
  · rintro rfl
    simp only [View.after] at seen
    refine ⟨inGood, good, ?_, ?_, live, tokens, ?_, bounded⟩
    · simp only [current, stream, List.map_append, List.map_cons, List.map_nil, List.append_nil]
    · simp only [seen, sent, succeeded, List.filter_append, List.filter_singleton, cond_true,
        List.map_append, List.map_cons, List.map_nil]
    · simp only [payloads, holding, List.length_singleton]
  · intro failed
    cases result with
    | ok => exact absurd rfl failed
    | error error =>
        replace seen : view sock = view state.outSocket := seen
        refine ⟨inGood, good, ?_, ?_, live, tokens, ?_, bounded⟩
        · simp only [current, stream, List.map_append, List.map_cons, List.map_nil,
            List.append_nil]
        · simp [seen, sent, succeeded, List.filter_append]
        · simp only [payloads, holding, List.length_singleton]

theorem Sound.released {packet : List UInt8} (sound : state.Sound backend view Good)
    (releasing : state.consumer = .releasing) (good : Good sock)
    (seen : view sock =
      (view state.inSocket).after packet (@Call.dropPayload Env 0 env) (.ok ())) :
    Sound backend view Good { state with inSocket := sock, consumer := .polling } := by
  rcases sound with ⟨-, outGood, stream, sent, live, tokens, payloads, bounded⟩
  simp only [holding, releasing, List.length_eq_one_iff] at payloads
  rcases payloads with ⟨held, payloads⟩
  simp only [View.after, payloads, List.eraseIdx_zero, List.tail_cons] at seen
  simp only [current, releasing] at stream
  simp only [poppedTokens, releasing] at live
  refine ⟨good, outGood, ?_, sent, live, ?_, ?_, bounded⟩
  · simp only [current, seen, stream]
  · simp only [seen, tokens]
  · simp only [seen, holding, List.length_nil]

theorem consumerStep_sound (refines : backend.Refines view Good Served)
    (sound : state.Sound backend view Good)
    (serves : state.Serves backend Served (.consumer env))
    (stepped : state.consumerStep backend env = some next) : next.Sound backend view Good := by
  cases pc : state.consumer with
  | polling =>
      simp only [consumerStep, pc] at stepped
      split at stepped
      · rw [Option.some.injEq] at stepped
        subst next
        refine sound.of_views sound.inGood sound.outGood rfl rfl ⟨rfl, rfl, rfl, rfl⟩
          ⟨?_, rfl, ?_⟩ ?_
        · simp only [poppedTokens, pc]
        · simp only [holding, pc]
        · simp only [current, pc]
      · split at stepped
        · rw [Option.some.injEq] at stepped
          exact stepped ▸ sound
        · rename_i filled
          rw [Option.some.injEq] at stepped
          exact stepped ▸ sound.popped pc filled
  | popped token =>
      simp only [consumerStep, pc, Option.map_eq_some_iff] at stepped
      simp only [Serves, pc] at serves
      rcases stepped with ⟨⟨result, sock⟩, consumed, rfl⟩
      rcases refines.step sound.inGood serves consumed with ⟨good, rfl | fails, packet, seen⟩
      · exact sound.consumed refines pc good seen
      · exact absurd fails id
  | sending =>
      simp only [consumerStep, pc, Option.bind_eq_some_iff, Option.map_eq_some_iff] at stepped
      simp only [Serves, pc] at serves
      rcases stepped with ⟨packet, present, ⟨result, sock⟩, sent, rfl⟩
      rcases refines.step sound.outGood (serves packet present) sent with ⟨good, -, other, seen⟩
      rcases sound.tried refines pc present good seen with ⟨succeeds, fails⟩
      cases result with
      | ok => exact succeeds rfl
      | error error => exact fails nofun
  | flushing =>
      simp only [consumerStep, pc, Option.map_eq_some_iff] at stepped
      simp only [Serves, pc] at serves
      rcases stepped with ⟨⟨result, sock⟩, flushed, rfl⟩
      rcases refines.step sound.outGood serves flushed with ⟨good, -, other, seen⟩
      refine sound.of_views sound.inGood good rfl ?_ ⟨rfl, rfl, rfl, rfl⟩ ⟨?_, rfl, ?_⟩ ?_
      · cases result with
        | ok => exact seen
        | error error => exact seen
      · simp only [poppedTokens, pc]
      · simp only [holding, pc]
      · simp only [current, pc]
  | releasing =>
      simp only [consumerStep, pc, Option.map_eq_some_iff] at stepped
      simp only [Serves, pc] at serves
      rcases stepped with ⟨⟨result, sock⟩, dropped, rfl⟩
      rcases refines.step sound.inGood serves dropped with ⟨good, rfl | fails, packet, seen⟩
      · exact sound.released pc good seen
      · exact absurd fails id
  | finished => simp [consumerStep, pc] at stepped

/-! ## Runs -/

theorem step_sound (refines : backend.Refines view Good Served)
    (sound : state.Sound backend view Good)
    (serves : state.Serves backend Served action)
    (stepped : state.step backend action = some next) : next.Sound backend view Good := by
  cases action with
  | producer env => exact producerStep_sound refines sound serves stepped
  | consumer env => exact consumerStep_sound refines sound serves stepped
  | interrupt =>
      rw [step, Option.some.injEq] at stepped
      subst next
      exact sound.of_views sound.inGood sound.outGood rfl rfl ⟨rfl, rfl, rfl, rfl⟩
        ⟨rfl, rfl, rfl⟩ rfl
  | input env =>
      simp only [step, Option.map_eq_some_iff] at stepped
      rcases stepped with ⟨⟨result, sock⟩, moved, rfl⟩
      rcases refines.step sound.inGood serves moved with ⟨good, -, packet, seen⟩
      have same : view sock = view state.inSocket := by
        cases result with
        | ok => exact seen
        | error error => exact seen
      refine sound.of_views good sound.outGood same rfl ⟨rfl, rfl, rfl, rfl⟩ ⟨rfl, rfl, rfl⟩
        (current_of_payloads rfl ?_)
      rw [refines.payloads, refines.payloads, same]
  | output env =>
      simp only [step, Option.map_eq_some_iff] at stepped
      rcases stepped with ⟨⟨result, sock⟩, moved, rfl⟩
      rcases refines.step sound.outGood serves moved with ⟨good, -, packet, seen⟩
      have same : view sock = view state.outSocket := by
        cases result with
        | ok => exact seen
        | error error => exact seen
      exact sound.of_views sound.inGood good rfl same ⟨rfl, rfl, rfl, rfl⟩ ⟨rfl, rfl, rfl⟩ rfl


theorem new_sound {inSocket outSocket : Sock} {ringSize : ℕ}
    (refines : backend.Refines view Good Served) (inGood : Good inSocket)
    (outGood : Good outSocket) (inNew : view inSocket = .empty) (outNew : view outSocket = .empty)
    (served : Served inSocket (.cloneCtx 0))
    (created : new backend inSocket outSocket ringSize = some state) :
    state.Sound backend view Good := by
  simp only [new, Option.map_eq_some_iff] at created
  rcases created with ⟨⟨result, sock⟩, cloned, rfl⟩
  rcases refines.step inGood served cloned with ⟨good, -, packet, seen⟩
  have same : view sock = .empty := by
    rw [← inNew]
    cases result with
    | ok => exact seen
    | error error => exact seen
  refine ⟨good, outGood, ?_, ?_, rfl, ?_, ?_, Nat.zero_le ringSize⟩
  · simp only [same, View.empty, current, List.map_nil, List.append_nil]
  · simp only [outNew, View.empty, succeeded, List.filter_nil, List.map_nil]
  · simp only [same, View.empty, List.length_nil]
  · simp only [same, View.empty, holding, List.length_nil]

theorem run_sound (refines : backend.Refines view Good Served) {inSocket outSocket : Sock}
    {ringSize : ℕ} {final : ForwarderMt Sock} (inGood : Good inSocket)
    (outGood : Good outSocket) (inNew : view inSocket = .empty) (outNew : view outSocket = .empty)
    (served : Served inSocket (.cloneCtx 0))
    (created : new backend inSocket outSocket ringSize = some state)
    (serves : RunMeets (step backend) (Serves backend Served) state actions)
    (performed : run (step backend) state actions = some final) :
    final.Sound backend view Good :=
  run_invariant (Sound backend view Good) (step_sound refines)
    (new_sound refines inGood outGood inNew outNew served created) serves performed

end Sound

/-! ## The end of the program -/

section End

variable {backend : Implementation Sock Env} {state next final : ForwarderMt Sock} {env : Env}
  {action : ForwardMtAction Env} {actions : List (ForwardMtAction Env)}

/-- The thread that sends has ended, and the other one has a token and no room for it. -/
structure Hangs (state : ForwarderMt Sock) : Prop where
  ended : state.consumer = .finished
  pushing : ∃ token, state.producer = .pushing token
  full : state.ringSize ≤ state.ring.length

theorem step_hangs (hangs : state.Hangs) (stepped : state.step backend action = some next) :
    next.Hangs := by
  rcases hangs with ⟨ended, ⟨token, pushing⟩, full⟩
  cases action with
  | producer env =>
      simp only [step, producerStep, pushing, if_neg (Nat.not_lt.mpr full),
        Option.some.injEq] at stepped
      exact stepped ▸ ⟨ended, ⟨token, pushing⟩, full⟩
  | consumer env => simp [step, consumerStep, ended] at stepped
  | interrupt =>
      rw [step, Option.some.injEq] at stepped
      exact stepped ▸ ⟨ended, ⟨token, pushing⟩, full⟩
  | input env =>
      simp only [step, Option.map_eq_some_iff] at stepped
      rcases stepped with ⟨⟨result, sock⟩, -, rfl⟩
      exact ⟨ended, ⟨token, pushing⟩, full⟩
  | output env =>
      simp only [step, Option.map_eq_some_iff] at stepped
      rcases stepped with ⟨⟨result, sock⟩, -, rfl⟩
      exact ⟨ended, ⟨token, pushing⟩, full⟩

theorem producerStep_keeps (stepped : state.producerStep backend env = some next) :
    next.consumer = state.consumer ∧ next.term = state.term := by
  cases pc : state.producer with
  | receiving =>
      simp only [producerStep, pc] at stepped
      split at stepped
      · exact Option.some.inj stepped ▸ ⟨rfl, rfl⟩
      · simp only [Option.map_eq_some_iff] at stepped
        rcases stepped with ⟨⟨result, sock⟩, -, rfl⟩
        cases result with
        | ok => exact ⟨rfl, rfl⟩
        | error error => exact ⟨rfl, rfl⟩
  | pushing token =>
      simp only [producerStep, pc] at stepped
      split at stepped
      · exact Option.some.inj stepped ▸ ⟨rfl, rfl⟩
      · exact Option.some.inj stepped ▸ ⟨rfl, rfl⟩
  | joining =>
      simp only [producerStep, pc, Option.ite_none_right_eq_some] at stepped
      exact Option.some.inj stepped.2 ▸ ⟨rfl, rfl⟩
  | finished => simp [producerStep, pc] at stepped

theorem consumerStep_ended (stepped : state.consumerStep backend env = some next)
    (ended : next.consumer = .finished) : next.term = true := by
  cases pc : state.consumer with
  | polling =>
      simp only [consumerStep, pc] at stepped
      split at stepped
      · rename_i interrupted
        exact Option.some.inj stepped ▸ interrupted
      · split at stepped
        · rw [← Option.some.inj stepped, pc] at ended
          cases ended
        · rw [← Option.some.inj stepped] at ended
          cases ended
  | popped token =>
      simp only [consumerStep, pc, Option.map_eq_some_iff] at stepped
      rcases stepped with ⟨⟨result, sock⟩, -, rfl⟩
      cases ended
  | sending =>
      simp only [consumerStep, pc, Option.bind_eq_some_iff, Option.map_eq_some_iff] at stepped
      rcases stepped with ⟨packet, -, ⟨result, sock⟩, -, rfl⟩
      cases result with
      | ok => cases ended
      | error error => cases ended
  | flushing =>
      simp only [consumerStep, pc, Option.map_eq_some_iff] at stepped
      rcases stepped with ⟨⟨result, sock⟩, -, rfl⟩
      cases ended
  | releasing =>
      simp only [consumerStep, pc, Option.map_eq_some_iff] at stepped
      rcases stepped with ⟨⟨result, sock⟩, -, rfl⟩
      cases ended
  | finished => simp [consumerStep, pc] at stepped

/-- The thread that sends ends after Ctrl-C only. -/
theorem step_ended (interrupted : state.consumer = .finished → state.term = true)
    (stepped : state.step backend action = some next) :
    next.consumer = .finished → next.term = true := by
  cases action with
  | producer env =>
      rcases producerStep_keeps stepped with ⟨consumer, term⟩
      rw [consumer, term]
      exact interrupted
  | consumer env => exact consumerStep_ended stepped
  | interrupt =>
      rw [step, Option.some.injEq] at stepped
      exact stepped ▸ fun _ => rfl
  | input env =>
      simp only [step, Option.map_eq_some_iff] at stepped
      rcases stepped with ⟨⟨result, sock⟩, -, rfl⟩
      exact interrupted
  | output env =>
      simp only [step, Option.map_eq_some_iff] at stepped
      rcases stepped with ⟨⟨result, sock⟩, -, rfl⟩
      exact interrupted

theorem joining_finishes (env : Env) (joining : state.producer = .joining)
    (ended : state.consumer = .finished) :
    ∃ last, Reaches (step backend) state last ∧ last.producer = .finished := by
  have stepped : state.step backend (.producer env) =
      some { state with producer := .finished } := by
    simp only [step, producerStep, joining, ended, if_true]
  exact ⟨_, .of_step _ stepped, rfl⟩

theorem receiving_finishes (env : Env) (receiving : state.producer = .receiving)
    (ended : state.consumer = .finished) (interrupted : state.term = true) :
    ∃ last, Reaches (step backend) state last ∧ last.producer = .finished := by
  have stepped : state.step backend (.producer env) =
      some { state with producer := .joining } := by
    simp only [step, producerStep, receiving, interrupted, if_true]
  rcases @joining_finishes Sock Env backend { state with producer := .joining } env rfl ended with
    ⟨last, reached, done⟩
  exact ⟨last, (Reaches.of_step _ stepped).trans reached, done⟩

/-- With room in the ring, the first thread alone ends the program. -/
theorem pushing_finishes {token : ℕ} (env : Env) (pushing : state.producer = .pushing token)
    (ended : state.consumer = .finished) (interrupted : state.term = true)
    (room : state.ring.length < state.ringSize) :
    ∃ last, Reaches (step backend) state last ∧ last.producer = .finished := by
  have stepped : state.step backend (.producer env) =
      some { state with ring := state.ring ++ [token], producer := .receiving } := by
    simp only [step, producerStep, pushing, if_pos room]
  rcases @receiving_finishes Sock Env backend
    { state with ring := state.ring ++ [token], producer := .receiving } env rfl ended interrupted
    with ⟨last, reached, done⟩
  exact ⟨last, (Reaches.of_step _ stepped).trans reached, done⟩

/-- Once the thread that sends has ended, the program ends, or it is about to, but for one case: a
token that the other thread received meanwhile finds the ring full, and is pushed for ever. -/
theorem finishes_iff {inSocket outSocket : Sock} {ringSize : ℕ} (env : Env)
    (created : new backend inSocket outSocket ringSize = some state)
    (performed : run (step backend) state actions = some final)
    (ended : final.consumer = .finished) :
    (∃ last, Reaches (step backend) final last ∧ last.producer = .finished) ↔
      ∀ token, final.producer = .pushing token → final.ring.length < final.ringSize := by
  constructor
  · rintro ⟨last, ⟨more, onwards⟩, finished⟩ token pushing
    by_contra full
    have hangs : last.Hangs :=
      run_invariant_of_step Hangs step_hangs ⟨ended, ⟨token, pushing⟩, Nat.not_lt.mp full⟩ onwards
    rcases hangs.pushing with ⟨other, pushing'⟩
    rw [finished] at pushing'
    cases pushing'
  · intro room
    have initial : state.consumer = .finished → state.term = true := by
      simp only [new, Option.map_eq_some_iff] at created
      rcases created with ⟨⟨result, sock⟩, -, rfl⟩
      exact nofun
    have interrupted : final.term = true :=
      run_invariant_of_step (fun state : ForwarderMt Sock =>
        state.consumer = .finished → state.term = true) step_ended initial performed ended
    cases pc : final.producer with
    | receiving => exact receiving_finishes env pc ended interrupted
    | pushing token => exact pushing_finishes env pc ended interrupted (room token pc)
    | joining => exact joining_finishes env pc ended
    | finished => exact ⟨final, .refl final, pc⟩

/-- Two packets arrive, and then Ctrl-C before the first of them is popped. -/
def lateInterrupt : List (ForwardMtAction (Option (List UInt8))) :=
  [.producer (some [1]), .producer none, .producer (some [2]), .interrupt, .consumer none]

/-- With a ring of one slot the program hangs. -/
theorem finishes_iff_lateInterrupt :
    ∃ state final, new View.ideal .empty .empty 1 = some state ∧
      run (step View.ideal) state lateInterrupt = some final ∧
      ¬∃ last, Reaches (step View.ideal) final last ∧ last.producer = .finished := by
  have created : new View.ideal .empty .empty 1 =
    some ⟨.empty, .empty, [], 1, [], 0, [], .receiving, .polling, false⟩ := rfl
  have performed : run (step View.ideal)
      ⟨.empty, .empty, [], 1, [], 0, [], .receiving, .polling, false⟩ lateInterrupt =
    some ⟨⟨[[1], [2]], [], [[1], [2]], []⟩, .empty, [0], 1, [0, 1], 2, [], .pushing 1, .finished,
      true⟩ := rfl
  refine ⟨_, _, created, performed, ?_⟩
  intro ends
  have room := (finishes_iff none created performed rfl).mp ends 1 rfl
  exact absurd room (by decide)

end End

end ForwarderMt

end Nethuns.Examples
