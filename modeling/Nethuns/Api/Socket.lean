import Mathlib.Data.List.InsertIdx
import Nethuns.Api.Pool
import Nethuns.Error

/-!
# The socket interface

Programs use every backend through the trait `Socket`, its contexts, tokens and payloads. A
backend is what it answers to each call, and the bytes behind the tokens and payloads that a
program holds. Next to it stands what the trait promises: a socket seen from outside is the
packets received and sent, and the packets that the program holds as tokens and as payloads. A
backend refines this view when each call changes the view of the socket as promised. What a
program does can then be proved once for all backends.

Tokens, payloads and contexts are named by their positions. What is not up to the program during
a call, such as the steps of the kernel, is an argument of the call.
-/

namespace Nethuns.Api

open Nethuns.Mpsc

universe u v

variable {Sock : Type u} {Env : Type v}

/-- A call on a socket, its contexts or what was received, or a step that no call makes. -/
inductive Call (Env : Type v)
  | recvToken (env : Env)
  | recv (env : Env)
  | consume (token ctx : ℕ)
  | intoToken (payload : ℕ)
  | writePayload (payload : ℕ) (bytes : List UInt8)
  | dropPayload (payload : ℕ) (env : Env)
  | cloneCtx (ctx : ℕ)
  | dropCtx (ctx : ℕ) (env : Env)
  | send (packet : List UInt8) (env : Env)
  | flush (env : Env)
  | surroundings (env : Env)

/-- The call can fail. -/
def Call.Fallible : Call Env → Prop
  | .recvToken _ | .recv _ | .send _ _ => True
  | _ => False

/-- An implementation of `Socket`. A call gives `none` when it panics. -/
structure Implementation (Sock : Type u) (Env : Type v) where
  call : Sock → Call Env → Option (Except Error Unit × Sock)
  tokens : Sock → List (List UInt8)
  payloads : Sock → List (List UInt8)

/-- What the trait promises of a socket. -/
structure View where
  received : List (List UInt8)
  sent : List (List UInt8)
  tokens : List (List UInt8)
  payloads : List (List UInt8)
deriving DecidableEq

namespace View

/-- A socket with which nothing has been done. -/
def empty : View := ⟨[], [], [], []⟩

/-- The view after a call. A call that fails changes nothing; `packet` is what a call receives. -/
def after (view : View) (packet : List UInt8) : Call Env → Except Error Unit → View
  | .recvToken _, .ok () =>
      { view with received := view.received ++ [packet], tokens := view.tokens ++ [packet] }
  | .recv _, .ok () =>
      { view with received := view.received ++ [packet], payloads := view.payloads ++ [packet] }
  | .consume token _, .ok () =>
      { view with
        tokens := view.tokens.eraseIdx token
        payloads := view.payloads ++ view.tokens[token]?.toList }
  | .intoToken payload, .ok () =>
      { view with
        tokens := view.tokens ++ view.payloads[payload]?.toList
        payloads := view.payloads.eraseIdx payload }
  | .writePayload payload bytes, .ok () =>
      { view with
        payloads := view.payloads.modify payload fun packet => bytes ++ packet.drop bytes.length }
  | .dropPayload payload _, .ok () => { view with payloads := view.payloads.eraseIdx payload }
  | .send packet _, .ok () => { view with sent := view.sent ++ [packet] }
  | _, _ => view

end View

/-- The backend keeps the promises of the trait in the calls that are served, on the sockets that
are in order. -/
structure Implementation.Refines (backend : Implementation Sock Env) (view : Sock → View)
    (Good : Sock → Prop) (Served : Sock → Call Env → Prop) : Prop where
  tokens : ∀ sock, backend.tokens sock = (view sock).tokens
  payloads : ∀ sock, backend.payloads sock = (view sock).payloads
  step : ∀ {sock next call result}, Good sock → Served sock call →
    backend.call sock call = some (result, next) →
      Good next ∧ (result = .ok () ∨ call.Fallible) ∧
        ∃ packet, view next = (view sock).after packet call result

/-- The promises of the trait as a socket of their own, on which the surroundings of a receive are
the packet that waits, if any. -/
def View.ideal : Implementation View (Option (List UInt8)) where
  call view call :=
    match call with
    | .recvToken none | .recv none => some (.error (.generic "No packets"), view)
    | .recvToken (some packet) | .recv (some packet) =>
        some (.ok (), view.after packet call (.ok ()))
    | call => some (.ok (), view.after [] call (.ok ()))
  tokens := View.tokens
  payloads := View.payloads

theorem View.ideal_refines :
    View.ideal.Refines id (fun _ => True) (fun _ _ => True) where
  tokens _ := rfl
  payloads _ := rfl
  step := by
    intro view next call result _ _ called
    simp only [ideal] at called
    split at called
    all_goals
      rw [Option.some.injEq, Prod.mk.injEq] at called
      rcases called with ⟨rfl, rfl⟩
    · exact ⟨trivial, Or.inr trivial, [], rfl⟩
    · exact ⟨trivial, Or.inr trivial, [], rfl⟩
    · exact ⟨trivial, Or.inl rfl, _, rfl⟩
    · exact ⟨trivial, Or.inl rfl, _, rfl⟩
    · exact ⟨trivial, Or.inl rfl, [], rfl⟩

/-! ## The part of the pool -/

/-- The call that an action on the pool is, where `env` gives what happens around a drop. -/
def PoolAction.call (env : Site → Env) : PoolAction → Call Env
  | .consume token ctx => .consume token ctx
  | .intoToken payload => .intoToken payload
  | .dropPayload payload site => .dropPayload payload (env site)
  | .cloneCtx ctx => .cloneCtx ctx
  | .dropCtx ctx site => .dropCtx ctx (env site)

/-- The view of a socket with the given pool, where `read` gives the bytes behind a token. -/
def Pool.view (pool : Pool) (read : Token → List UInt8) (received sent : List (List UInt8)) :
    View where
  received := received
  sent := sent
  tokens := pool.tokens.map read
  payloads := pool.payloads.map fun payload => read payload.token

/-- The pools do what the trait promises, for all backends that have one. -/
theorem Pool.step_view {pool next : Pool} {action : PoolAction} {discards : List Discard}
    (read : Token → List UInt8) (received sent : List (List UInt8))
    (env : Site → Env) (stepped : pool.step action = some (next, discards)) :
    next.view read received sent =
      (pool.view read received sent).after [] (action.call env) (.ok ()) := by
  cases action with
  | consume token ctx =>
      simp only [step, consume, Option.map_eq_some_iff, Option.bind_eq_some_iff,
        Prod.mk.injEq] at stepped
      rcases stepped with ⟨_, ⟨-, -, taken, present, consumed⟩, rfl, -⟩
      split at consumed
      · rw [Option.some.injEq] at consumed
        subst consumed
        simp [view, View.after, PoolAction.call, present, List.eraseIdx_map]
      · simp at consumed
  | intoToken payload =>
      simp only [step, intoToken, Option.map_eq_some_iff, Prod.mk.injEq] at stepped
      rcases stepped with ⟨_, ⟨taken, present, rfl⟩, rfl, -⟩
      simp [view, View.after, PoolAction.call, present, List.eraseIdx_map]
  | dropPayload payload site =>
      simp only [step, dropPayload, Option.bind_eq_some_iff, Option.map_eq_some_iff,
        Prod.mk.injEq] at stepped
      rcases stepped with ⟨taken, -, ⟨channel, lost⟩, -, rfl, -⟩
      simp [view, View.after, PoolAction.call, List.eraseIdx_map]
  | cloneCtx ctx =>
      simp only [step, cloneCtx, Option.map_eq_some_iff, Prod.mk.injEq] at stepped
      rcases stepped with ⟨_, ⟨channel, -, rfl⟩, rfl, -⟩
      rfl
  | dropCtx ctx site =>
      simp only [step, dropCtx] at stepped
      split at stepped
      · simp at stepped
      · simp only [Option.map_eq_some_iff, Prod.mk.injEq] at stepped
        rcases stepped with ⟨⟨channel, lost⟩, -, rfl, -⟩
        rfl

section View

variable {pool next last : Pool} {read later : Token → List UInt8} {token : Token}

/-- A call that leaves the tokens and the payloads, and the bytes behind them. -/
theorem Pool.view_congr (tokens : next.tokens = pool.tokens)
    (payloads : next.payloads = pool.payloads)
    (held : ∀ other ∈ pool.liveTokens, later other = read other)
    (received sent : List (List UInt8)) :
    next.view later received sent = pool.view read received sent := by
  simp only [view, tokens, payloads, View.mk.injEq, true_and]
  constructor
  · apply List.map_congr_left
    intro other issued
    exact held other (List.mem_append_left _ issued)
  · apply List.map_congr_left
    intro payload present
    exact held payload.token (List.mem_append_right _ (List.mem_map_of_mem present))

theorem Pool.view_recvToken (tokens : next.tokens = pool.tokens ++ [token])
    (payloads : next.payloads = pool.payloads)
    (held : ∀ other ∈ pool.liveTokens, later other = read other)
    (received sent : List (List UInt8)) (env : Env) :
    next.view later (received ++ [later token]) sent =
      (pool.view read received sent).after (later token) (.recvToken env) (.ok ()) := by
  simp only [view, View.after, tokens, payloads, List.map_append, List.map_cons, List.map_nil,
    View.mk.injEq, true_and, List.append_cancel_right_eq]
  constructor
  · apply List.map_congr_left
    intro other issued
    exact held other (List.mem_append_left _ issued)
  · apply List.map_congr_left
    intro payload present
    exact held payload.token (List.mem_append_right _ (List.mem_map_of_mem present))

/-- `Socket::recv` consumes the last token. -/
theorem Pool.view_recv (tokens : next.tokens = pool.tokens ++ [token])
    (payloads : next.payloads = pool.payloads)
    (held : ∀ other ∈ pool.liveTokens, later other = read other)
    (consumed : next.consume (next.tokens.length - 1) 0 = some last)
    (received sent : List (List UInt8)) (env : Env) :
    last.view later (received ++ [later token]) sent =
      (pool.view read received sent).after (later token) (.recv env) (.ok ()) := by
  have used : next.step (.consume (next.tokens.length - 1) 0) = some (last, []) := by
    simp only [step, consumed, Option.map_some]
  have count : next.tokens.length - 1 = pool.tokens.length := by
    rw [tokens, List.length_append, List.length_singleton, Nat.add_sub_cancel]
  rw [step_view later (received ++ [later token]) sent (fun _ => env) used,
    view_recvToken tokens payloads held received sent env]
  simp [PoolAction.call, View.after, view, count, List.eraseIdx_append_of_length_le]

/-- What is written through a payload changes this payload and no other packet. -/
theorem Pool.view_writePayload {position : ℕ} {bytes : List UInt8} {payload : Payload}
    (distinct : pool.liveTokens.Nodup) (present : pool.payloads[position]? = some payload)
    (own : later payload.token = bytes ++ (read payload.token).drop bytes.length)
    (others : ∀ other ∈ pool.liveTokens, other ≠ payload.token → later other = read other)
    (received sent : List (List UInt8)) (packet : List UInt8) :
    pool.view later received sent = (pool.view read received sent).after packet
      (@Call.writePayload Env position bytes) (.ok ()) := by
  rw [liveTokens, List.nodup_append'] at distinct
  rcases distinct with ⟨-, payloads, apart⟩
  simp only [view, View.after, View.mk.injEq, true_and]
  constructor
  · apply List.map_congr_left
    intro token issued
    apply others token (List.mem_append_left _ issued)
    intro same
    exact apart issued (same ▸ List.mem_map_of_mem (List.mem_of_getElem? present))
  · apply List.ext_getElem?
    intro place
    simp only [List.getElem?_map, List.getElem?_modify, Option.map_eq_map]
    cases found : pool.payloads[place]? with
    | none => rfl
    | some other =>
        simp only [Option.map_some, Option.some.injEq]
        by_cases same : position = place
        · have equal : payload = other := by
            rw [← Option.some.injEq, ← present, ← found, same]
          simp only [same, if_true, ← equal, own]
        · simp only [same, if_false]
          apply others other.token
          · exact List.mem_append_right _ (List.mem_map_of_mem (List.mem_of_getElem? found))
          · intro equal
            apply same
            apply (List.getElem?_inj _ payloads).mp
            · simp only [List.getElem?_map, present, found, Option.map_some, equal]
            · rw [List.length_map]
              exact (List.getElem?_eq_some_iff.mp present).1

end View

end Nethuns.Api
