import Nethuns.Api.Socket

/-!
# The packet forwarder

`run_forwarder` receives a packet from the one socket and sends it through the other one. When a
send fails it flushes the socket and tries again, as often as it takes; the payload is dropped
after the packet has been sent. The flag that Ctrl-C sets is read before each receive, and not
while a packet is being sent.
-/

namespace Nethuns.Examples

open Nethuns.Lib Nethuns.Api

universe u v

/-- Where the loop of `run_forwarder` is: before a receive, a send, a flush, after a send that
succeeded, or at the end. -/
inductive ForwardPc
  | receiving
  | sending
  | flushing
  | forwarded
  | terminated
deriving DecidableEq

structure Forwarder (Sock : Type u) where
  inSocket : Sock
  outSocket : Sock
  pc : ForwardPc
  term : Bool
  totalRcv : UInt64
  totalFwd : UInt64

/-- A step of the loop, Ctrl-C, or a step of the surroundings of a socket. -/
inductive ForwardAction (Env : Type v)
  | go (env : Env)
  | interrupt
  | input (env : Env)
  | output (env : Env)

namespace Forwarder

variable {Sock : Type u} {Env : Type v}

/-- The forwarder after its sockets are created. -/
def new (inSocket outSocket : Sock) : Forwarder Sock :=
  ⟨inSocket, outSocket, .receiving, false, 0, 0⟩

/-- One step of the loop. -/
def go (backend : Implementation Sock Env) (forwarder : Forwarder Sock) (env : Env) :
    Option (Forwarder Sock) :=
  match forwarder.pc with
  | .receiving =>
      if forwarder.term then
        some { forwarder with pc := .terminated }
      else
        (backend.call forwarder.inSocket (.recv env)).map fun (result, sock) =>
          match result with
          | .ok () =>
              { forwarder with
                inSocket := sock
                pc := .sending
                totalRcv := forwarder.totalRcv + 1 }
          | .error _ => { forwarder with inSocket := sock }
  | .sending =>
      (backend.payloads forwarder.inSocket)[0]?.bind fun packet =>
        (backend.call forwarder.outSocket (.send packet env)).map fun (result, sock) =>
          match result with
          | .ok () => { forwarder with outSocket := sock, pc := .forwarded }
          | .error _ => { forwarder with outSocket := sock, pc := .flushing }
  | .flushing =>
      (backend.call forwarder.outSocket (.flush env)).map fun (_, sock) =>
        { forwarder with outSocket := sock, pc := .sending }
  | .forwarded =>
      (backend.call forwarder.inSocket (.dropPayload 0 env)).map fun (_, sock) =>
        { forwarder with
          inSocket := sock
          pc := .receiving
          totalFwd := forwarder.totalFwd + 1 }
  | .terminated => none

def step (backend : Implementation Sock Env) (forwarder : Forwarder Sock) :
    ForwardAction Env → Option (Forwarder Sock)
  | .go env => forwarder.go backend env
  | .interrupt => some { forwarder with term := true }
  | .input env =>
      (backend.call forwarder.inSocket (.surroundings env)).map fun (_, sock) =>
        { forwarder with inSocket := sock }
  | .output env =>
      (backend.call forwarder.outSocket (.surroundings env)).map fun (_, sock) =>
        { forwarder with outSocket := sock }

/-- The calls that a step makes are served. -/
def Serves (backend : Implementation Sock Env) (Served : Sock → Call Env → Prop)
    (forwarder : Forwarder Sock) : ForwardAction Env → Prop
  | .go env =>
      match forwarder.pc with
      | .receiving => forwarder.term = false → Served forwarder.inSocket (.recv env)
      | .sending => ∀ packet, (backend.payloads forwarder.inSocket)[0]? = some packet →
          Served forwarder.outSocket (.send packet env)
      | .flushing => Served forwarder.outSocket (.flush env)
      | .forwarded => Served forwarder.inSocket (.dropPayload 0 env)
      | .terminated => True
  | .interrupt => True
  | .input env => Served forwarder.inSocket (.surroundings env)
  | .output env => Served forwarder.outSocket (.surroundings env)

/-- The packet that was received and not sent yet. -/
def current (backend : Implementation Sock Env) (forwarder : Forwarder Sock) : List (List UInt8) :=
  match forwarder.pc with
  | .sending | .flushing => backend.payloads forwarder.inSocket
  | .receiving | .forwarded | .terminated => []

/-- How many payloads the loop holds. -/
def holding (forwarder : Forwarder Sock) : ℕ :=
  match forwarder.pc with
  | .sending | .flushing | .forwarded => 1
  | .receiving | .terminated => 0

/-- How many packets were sent but not counted yet. -/
def uncounted (forwarder : Forwarder Sock) : UInt64 :=
  match forwarder.pc with
  | .forwarded => 1
  | .receiving | .sending | .flushing | .terminated => 0

/-- What has been received is what has been sent and the current packet; the loop holds no other
payload, and its totals are right. -/
structure Sound (backend : Implementation Sock Env) (view : Sock → View) (Good : Sock → Prop)
    (forwarder : Forwarder Sock) : Prop where
  inGood : Good forwarder.inSocket
  outGood : Good forwarder.outSocket
  stream : (view forwarder.inSocket).received =
    (view forwarder.outSocket).sent ++ forwarder.current backend
  tokens : (view forwarder.inSocket).tokens = []
  payloads : (view forwarder.inSocket).payloads.length = forwarder.holding
  totalRcv : forwarder.totalRcv = .ofNat (view forwarder.inSocket).received.length
  totalFwd : forwarder.totalFwd + forwarder.uncounted =
    .ofNat (view forwarder.outSocket).sent.length

section Sound

variable {backend : Implementation Sock Env} {view : Sock → View} {Good : Sock → Prop}
  {Served : Sock → Call Env → Prop} {forwarder next : Forwarder Sock} {env : Env}
  {action : ForwardAction Env} {actions : List (ForwardAction Env)}

/-- A step that changes neither view, nor what the loop holds. -/
theorem Sound.of_views (refines : backend.Refines view Good Served)
    (sound : forwarder.Sound backend view Good) (inGood : Good next.inSocket)
    (outGood : Good next.outSocket) (inSeen : view next.inSocket = view forwarder.inSocket)
    (outSeen : view next.outSocket = view forwarder.outSocket)
    (same : next.pc = forwarder.pc ∨ forwarder.pc = .receiving ∧ next.pc = .terminated ∨
      forwarder.pc = .sending ∧ next.pc = .flushing ∨
      forwarder.pc = .flushing ∧ next.pc = .sending)
    (totalRcv : next.totalRcv = forwarder.totalRcv)
    (totalFwd : next.totalFwd = forwarder.totalFwd) : next.Sound backend view Good := by
  rcases sound with ⟨-, -, stream, tokens, payloads, rcv, fwd⟩
  have phases : next.current backend = forwarder.current backend ∧
      next.holding = forwarder.holding ∧ next.uncounted = forwarder.uncounted := by
    simp only [current, holding, uncounted, refines.payloads, inSeen]
    rcases same with same | ⟨before, after⟩ | ⟨before, after⟩ | ⟨before, after⟩
    · simp only [same, and_self]
    · simp only [before, after, and_self]
    · simp only [before, after, and_self]
    · simp only [before, after, and_self]
  rcases phases with ⟨current, holding, uncounted⟩
  refine ⟨inGood, outGood, ?_, ?_, ?_, ?_, ?_⟩
  · rw [inSeen, outSeen, current, stream]
  · rw [inSeen, tokens]
  · rw [inSeen, holding, payloads]
  · rw [inSeen, totalRcv, rcv]
  · rw [outSeen, totalFwd, uncounted, fwd]

theorem Sound.received {sock : Sock} {packet : List UInt8}
    (refines : backend.Refines view Good Served) (sound : forwarder.Sound backend view Good)
    (receiving : forwarder.pc = .receiving) (good : Good sock)
    (seen : view sock = (view forwarder.inSocket).after packet (@Call.recv Env env) (.ok ())) :
    Sound backend view Good { forwarder with
      inSocket := sock
      pc := .sending
      totalRcv := forwarder.totalRcv + 1 } := by
  rcases sound with ⟨-, outGood, stream, tokens, payloads, rcv, fwd⟩
  simp only [holding, receiving, List.length_eq_zero_iff] at payloads
  simp only [current, receiving, List.append_nil] at stream
  simp only [uncounted, receiving] at fwd
  simp only [View.after, payloads, List.nil_append] at seen
  refine ⟨good, outGood, ?_, ?_, ?_, ?_, fwd⟩
  · simp only [current, refines.payloads, seen, stream]
  · simp only [seen, tokens]
  · simp only [seen, holding, List.length_singleton]
  · simp only [seen, rcv, List.length_append, List.length_singleton, UInt64.ofNat_add,
      UInt64.ofNat_one]

theorem Sound.sent {sock : Sock} {packet other : List UInt8}
    (refines : backend.Refines view Good Served) (sound : forwarder.Sound backend view Good)
    (sending : forwarder.pc = .sending)
    (present : (backend.payloads forwarder.inSocket)[0]? = some packet) (good : Good sock)
    (seen : view sock =
      (view forwarder.outSocket).after other (@Call.send Env packet env) (.ok ())) :
    Sound backend view Good { forwarder with outSocket := sock, pc := .forwarded } := by
  rcases sound with ⟨inGood, -, stream, tokens, payloads, rcv, fwd⟩
  rw [refines.payloads] at present
  simp only [holding, sending, List.length_eq_one_iff] at payloads
  rcases payloads with ⟨held, payloads⟩
  simp only [payloads, List.getElem?_cons_zero, Option.some.injEq] at present
  simp only [current, sending, refines.payloads, payloads, present] at stream
  simp only [uncounted, sending, UInt64.add_zero] at fwd
  simp only [View.after] at seen
  refine ⟨inGood, good, ?_, tokens, ?_, rcv, ?_⟩
  · simp only [current, seen, stream, List.append_nil]
  · simp only [payloads, holding, List.length_singleton]
  · simp only [seen, uncounted, fwd, List.length_append, List.length_singleton, UInt64.ofNat_add,
      UInt64.ofNat_one]

theorem Sound.dropped {sock : Sock} {packet : List UInt8}
    (sound : forwarder.Sound backend view Good) (forwarded : forwarder.pc = .forwarded)
    (good : Good sock)
    (seen : view sock =
      (view forwarder.inSocket).after packet (@Call.dropPayload Env 0 env) (.ok ())) :
    Sound backend view Good { forwarder with
      inSocket := sock
      pc := .receiving
      totalFwd := forwarder.totalFwd + 1 } := by
  rcases sound with ⟨-, outGood, stream, tokens, payloads, rcv, fwd⟩
  simp only [holding, forwarded, List.length_eq_one_iff] at payloads
  rcases payloads with ⟨held, payloads⟩
  simp only [current, forwarded] at stream
  simp only [uncounted, forwarded] at fwd
  simp only [View.after, payloads, List.eraseIdx_zero, List.tail_cons] at seen
  refine ⟨good, outGood, ?_, ?_, ?_, ?_, ?_⟩
  · simp only [current, seen, stream]
  · simp only [seen, tokens]
  · simp only [seen, holding, List.length_nil]
  · simp only [seen, rcv]
  · simp only [uncounted, fwd, UInt64.add_zero]

theorem go_sound (refines : backend.Refines view Good Served)
    (sound : forwarder.Sound backend view Good)
    (serves : forwarder.Serves backend Served (.go env))
    (stepped : forwarder.go backend env = some next) : next.Sound backend view Good := by
  cases pc : forwarder.pc with
  | receiving =>
      simp only [go, pc] at stepped
      simp only [Serves, pc] at serves
      split at stepped
      · rw [Option.some.injEq] at stepped
        subst next
        exact sound.of_views refines sound.inGood sound.outGood rfl rfl
          (Or.inr (Or.inl ⟨pc, rfl⟩)) rfl rfl
      · rename_i running
        simp only [Option.map_eq_some_iff] at stepped
        rcases stepped with ⟨⟨result, sock⟩, received, rfl⟩
        rcases refines.step sound.inGood (serves (by simpa using running)) received with
          ⟨good, -, packet, seen⟩
        cases result with
        | ok => exact sound.received refines pc good seen
        | error error =>
            exact sound.of_views refines good sound.outGood seen rfl (Or.inl pc.symm) rfl rfl
  | sending =>
      simp only [go, pc, Option.bind_eq_some_iff, Option.map_eq_some_iff] at stepped
      simp only [Serves, pc] at serves
      rcases stepped with ⟨packet, present, ⟨result, sock⟩, sent, rfl⟩
      rcases refines.step sound.outGood (serves packet present) sent with ⟨good, -, other, seen⟩
      cases result with
      | ok => exact sound.sent refines pc present good seen
      | error error =>
          exact sound.of_views refines sound.inGood good rfl seen
            (Or.inr (Or.inr (Or.inl ⟨pc, rfl⟩))) rfl rfl
  | flushing =>
      simp only [go, pc, Option.map_eq_some_iff] at stepped
      simp only [Serves, pc] at serves
      rcases stepped with ⟨⟨result, sock⟩, flushed, rfl⟩
      rcases refines.step sound.outGood serves flushed with ⟨good, -, other, seen⟩
      refine sound.of_views refines sound.inGood good rfl ?_
        (Or.inr (Or.inr (Or.inr ⟨pc, rfl⟩))) rfl rfl
      cases result <;> exact seen
  | forwarded =>
      simp only [go, pc, Option.map_eq_some_iff] at stepped
      simp only [Serves, pc] at serves
      rcases stepped with ⟨⟨result, sock⟩, dropped, rfl⟩
      rcases refines.step sound.inGood serves dropped with ⟨good, rfl | fails, packet, seen⟩
      · exact sound.dropped pc good seen
      · exact absurd fails id
  | terminated => simp [go, pc] at stepped

theorem Sound.current_length (refines : backend.Refines view Good Served)
    (sound : forwarder.Sound backend view Good) : (forwarder.current backend).length ≤ 1 := by
  have count := sound.payloads
  simp only [current, refines.payloads]
  cases pc : forwarder.pc with
  | receiving => exact Nat.zero_le 1
  | sending =>
      rw [holding, pc] at count
      exact count.le
  | flushing =>
      rw [holding, pc] at count
      exact count.le
  | forwarded => exact Nat.zero_le 1
  | terminated => exact Nat.zero_le 1

theorem step_sound (refines : backend.Refines view Good Served)
    (sound : forwarder.Sound backend view Good)
    (serves : forwarder.Serves backend Served action)
    (stepped : forwarder.step backend action = some next) : next.Sound backend view Good := by
  cases action with
  | go env => exact go_sound refines sound serves stepped
  | interrupt =>
      rw [step, Option.some.injEq] at stepped
      subst next
      exact sound.of_views refines sound.inGood sound.outGood rfl rfl (Or.inl rfl) rfl rfl
  | input env =>
      simp only [step, Option.map_eq_some_iff] at stepped
      rcases stepped with ⟨⟨result, sock⟩, moved, rfl⟩
      rcases refines.step sound.inGood serves moved with ⟨good, -, packet, seen⟩
      refine sound.of_views refines good sound.outGood ?_ rfl (Or.inl rfl) rfl rfl
      cases result <;> exact seen
  | output env =>
      simp only [step, Option.map_eq_some_iff] at stepped
      rcases stepped with ⟨⟨result, sock⟩, moved, rfl⟩
      rcases refines.step sound.outGood serves moved with ⟨good, -, packet, seen⟩
      refine sound.of_views refines sound.inGood good rfl ?_ (Or.inl rfl) rfl rfl
      cases result <;> exact seen

theorem new_sound {inSocket outSocket : Sock} (inGood : Good inSocket) (outGood : Good outSocket)
    (inNew : view inSocket = .empty) (outNew : view outSocket = .empty) :
    (new inSocket outSocket).Sound backend view Good := by
  refine ⟨inGood, outGood, ?_, ?_, ?_, ?_, ?_⟩
  all_goals simp [new, current, holding, uncounted, inNew, outNew, View.empty]

/-- In every run, however often sends fail and whatever the surroundings of the sockets do, the
packets received are those sent, in order and each of them once, and at most one more, which is
the one that the loop is sending. The loop holds one payload at most. -/
theorem run_sound (refines : backend.Refines view Good Served) {inSocket outSocket : Sock}
    {final : Forwarder Sock} (inGood : Good inSocket)
    (outGood : Good outSocket) (inNew : view inSocket = .empty) (outNew : view outSocket = .empty)
    (serves : RunMeets (step backend) (Serves backend Served) (new inSocket outSocket) actions)
    (performed : run (step backend) (new inSocket outSocket) actions = some final) :
    final.Sound backend view Good :=
  run_invariant (Sound backend view Good) (step_sound refines)
    (new_sound inGood outGood inNew outNew) serves performed

/-! ## A packet that no send accepts -/

/-- On the sockets in `Bad` no send of the packet succeeds, and no call of the loop leads out of
them. -/
structure Rejects (backend : Implementation Sock Env) (packet : List UInt8) (Bad : Sock → Prop) :
    Prop where
  send : ∀ {sock next env result}, Bad sock →
    backend.call sock (.send packet env) = some (result, next) → result ≠ .ok () ∧ Bad next
  flush : ∀ {sock next env result}, Bad sock →
    backend.call sock (.flush env) = some (result, next) → Bad next
  surroundings : ∀ {sock next env result}, Bad sock →
    backend.call sock (.surroundings env) = some (result, next) → Bad next

/-- The loop sends a packet that no send accepts. -/
structure Stuck (backend : Implementation Sock Env) (Good : Sock → Prop) (packet : List UInt8)
    (Bad : Sock → Prop) (forwarder : Forwarder Sock) : Prop where
  busy : forwarder.pc = .sending ∨ forwarder.pc = .flushing
  inGood : Good forwarder.inSocket
  payload : (backend.payloads forwarder.inSocket)[0]? = some packet
  bad : Bad forwarder.outSocket

variable {packet : List UInt8} {Bad : Sock → Prop}

theorem Stuck.current (refines : backend.Refines view Good Served)
    (sound : forwarder.Sound backend view Good)
    (stuck : forwarder.Stuck backend Good packet Bad) : forwarder.current backend = [packet] := by
  have single := sound.current_length refines
  have payload := stuck.payload
  simp only [Forwarder.current] at single ⊢
  rcases stuck.busy with pc | pc
  all_goals
    simp only [pc] at single ⊢
    rcases List.getElem?_eq_some_iff.mp payload with ⟨inside, first⟩
    rcases List.length_eq_one_iff.mp (Nat.le_antisymm single inside) with ⟨only, payloads⟩
    simp only [payloads, List.getElem_cons_zero] at first
    rw [payloads, first]

theorem step_stuck (refines : backend.Refines view Good Served)
    (rejects : Rejects backend packet Bad) (stuck : forwarder.Stuck backend Good packet Bad)
    (serves : forwarder.Serves backend Served action)
    (stepped : forwarder.step backend action = some next) :
    next.Stuck backend Good packet Bad := by
  rcases stuck with ⟨busy, inGood, payload, bad⟩
  cases action with
  | go env =>
      rcases busy with pc | pc
      · simp only [step, go, pc, payload, Option.bind_some, Option.map_eq_some_iff] at stepped
        rcases stepped with ⟨⟨result, sock⟩, sent, rfl⟩
        rcases rejects.send bad sent with ⟨fails, bad'⟩
        cases result with
        | ok => exact absurd rfl fails
        | error error => exact ⟨Or.inr rfl, inGood, payload, bad'⟩
      · simp only [step, go, pc, Option.map_eq_some_iff] at stepped
        rcases stepped with ⟨⟨result, sock⟩, flushed, rfl⟩
        exact ⟨Or.inl rfl, inGood, payload, rejects.flush bad flushed⟩
  | interrupt =>
      rw [step, Option.some.injEq] at stepped
      subst next
      exact ⟨busy, inGood, payload, bad⟩
  | input env =>
      simp only [step, Option.map_eq_some_iff] at stepped
      rcases stepped with ⟨⟨result, sock⟩, moved, rfl⟩
      rcases refines.step inGood serves moved with ⟨good, -, other, seen⟩
      refine ⟨busy, good, ?_, bad⟩
      rw [refines.payloads] at payload ⊢
      cases result with
      | ok => exact (show view sock = view forwarder.inSocket from seen) ▸ payload
      | error error => exact (show view sock = view forwarder.inSocket from seen) ▸ payload
  | output env =>
      simp only [step, Option.map_eq_some_iff] at stepped
      rcases stepped with ⟨⟨result, sock⟩, moved, rfl⟩
      exact ⟨busy, inGood, payload, rejects.surroundings bad moved⟩

/-- Once a packet is received that no send accepts, the loop goes on with it for ever, also after
Ctrl-C. -/
theorem run_stuck (refines : backend.Refines view Good Served)
    (rejects : Rejects backend packet Bad) {final : Forwarder Sock}
    (stuck : forwarder.Stuck backend Good packet Bad)
    (serves : RunMeets (step backend) (Serves backend Served) forwarder actions)
    (performed : run (step backend) forwarder actions = some final) :
    final.Stuck backend Good packet Bad :=
  run_invariant (Stuck backend Good packet Bad) (step_stuck refines rejects) stuck serves performed

/-- What the calls on the output socket keep holds of it after every run. -/
theorem run_output {Kept : Sock → Prop} {final : Forwarder Sock}
    (send : ∀ {sock next packet env result}, Kept sock →
      backend.call sock (.send packet env) = some (result, next) → Kept next)
    (flush : ∀ {sock next env result}, Kept sock →
      backend.call sock (.flush env) = some (result, next) → Kept next)
    (surroundings : ∀ {sock next env result}, Kept sock →
      backend.call sock (.surroundings env) = some (result, next) → Kept next)
    (initial : Kept forwarder.outSocket)
    (performed : run (step backend) forwarder actions = some final) : Kept final.outSocket := by
  apply run_invariant_of_step (fun forwarder : Forwarder Sock => Kept forwarder.outSocket) _
    initial performed
  intro forwarder next action kept stepped
  cases action with
  | go env =>
      cases pc : forwarder.pc with
      | receiving =>
          simp only [step, go, pc] at stepped
          split at stepped
          · rw [Option.some.injEq] at stepped
            exact stepped ▸ kept
          · simp only [Option.map_eq_some_iff] at stepped
            rcases stepped with ⟨⟨result, sock⟩, -, rfl⟩
            cases result <;> exact kept
      | sending =>
          simp only [step, go, pc, Option.bind_eq_some_iff, Option.map_eq_some_iff] at stepped
          rcases stepped with ⟨packet, -, ⟨result, sock⟩, sent, rfl⟩
          cases result <;> exact send kept sent
      | flushing =>
          simp only [step, go, pc, Option.map_eq_some_iff] at stepped
          rcases stepped with ⟨⟨result, sock⟩, flushed, rfl⟩
          exact flush kept flushed
      | forwarded =>
          simp only [step, go, pc, Option.map_eq_some_iff] at stepped
          rcases stepped with ⟨⟨result, sock⟩, -, rfl⟩
          exact kept
      | terminated => simp [step, go, pc] at stepped
  | interrupt =>
      rw [step, Option.some.injEq] at stepped
      exact stepped ▸ kept
  | input env =>
      simp only [step, Option.map_eq_some_iff] at stepped
      rcases stepped with ⟨⟨result, sock⟩, -, rfl⟩
      exact kept
  | output env =>
      simp only [step, Option.map_eq_some_iff] at stepped
      rcases stepped with ⟨⟨result, sock⟩, moved, rfl⟩
      exact surroundings kept moved

end Sound

end Forwarder

end Nethuns.Examples
