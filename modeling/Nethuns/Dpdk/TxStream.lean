import Nethuns.Dpdk.Progress
import Nethuns.Dpdk.Stock
import Mathlib.Data.List.Forall2

/-!
# The packets that a DPDK socket transmits

`send_inner` refuses a packet that does not fit the mbuf, but the mbuf is already taken, and the
reference to it makes it ready when it is dropped, on the error path too: a refused packet puts
an empty mbuf on the wire. The length of the packet is narrowed to `u16` before it is compared, so
that a packet of 65536 bytes or more can pass the check, and the copy then panics. As long as
every packet fits the mbuf that its send is given, the mbufs that the NIC accepts are those of the
packets sent, in order.
-/

namespace Nethuns.Dpdk

open Nethuns.Lib

/-- The mbuf has the packet: both lengths and the bytes. -/
structure Mbuf.Carries (mbuf : Mbuf) (packet : List UInt8) : Prop where
  dataOff : mbuf.dataOff = 0
  dataLen : mbuf.dataLen.toNat = packet.length
  pktLen : mbuf.pktLen.toNat = packet.length
  data : mbuf.data.take packet.length = packet

/-- A socket with the packets for which a send returned `Ok`, and the mbufs that the NIC
accepted, as they were then. -/
structure TxTrace where
  sock : Sock
  sent : List (List UInt8)
  wire : List Mbuf

namespace TxTrace

/-- A new socket, whose first allocation has stocked the transmitter. -/
def start (fresh : ℕ → ℕ) (mbufs : ℕ → Mbuf) : TxTrace := ⟨.create fresh mbufs, [], []⟩

/-- Performs a call; `none` when it aborts the process. -/
def step (trace : TxTrace) : Call → Option TxTrace
  | .send packet device =>
      match trace.sock.send packet device with
      | .error _ => none
      | .ok outcome =>
          match outcome.result with
          | .ok () => some ⟨outcome.sock, trace.sent ++ [packet], trace.wire ++ outcome.burst⟩
          | .error _ => some ⟨outcome.sock, trace.sent, trace.wire ++ outcome.burst⟩
  | .flush accepted =>
      let outcome := trace.sock.flush accepted
      some ⟨outcome.sock, trace.sent, trace.wire ++ outcome.burst⟩

theorem step_sock (trace : TxTrace) (call : Call) :
    (trace.step call).map TxTrace.sock = trace.sock.step call := by
  cases call with
  | flush accepted => rfl
  | send packet device =>
      simp only [step, Sock.step]
      cases sent : trace.sock.send packet device with
      | error fault => rfl
      | ok outcome =>
          simp only
          cases result : outcome.result with
          | error error => rfl
          | ok _ => rfl

/-- What the NIC has accepted and what waits for it are the packets sent, in order. -/
def Faithful (trace : TxTrace) : Prop :=
  List.Forall₂ Mbuf.Carries
    (trace.wire ++ trace.sock.tx.readyBufs.elems.map trace.sock.mbufs) trace.sent

/-- The call does not panic and leaves a faithful trace, and a send fails with `TooBigPacket`
exactly when the packet is longer than the mbuf that it is given. -/
def StepFaithful (trace : TxTrace) (call : Call) : Prop :=
  (∃ next, trace.step call = some next ∧ next.Faithful) ∧
    ∀ packet device outcome, call = .send packet device →
      trace.sock.send packet device = .ok outcome →
        ((∃ size, outcome.result = .error (.tooBigPacket size)) ↔
          ∃ mbuf, trace.sock.tx.upcoming device = some mbuf ∧
            (trace.sock.mbufs mbuf).bufLen.toNat < packet.length)

/-- The memory pool gives out different mbufs, and none that is ready. -/
def Allocates (trace : TxTrace) : Call → Prop
  | .send _ device => (trace.sock.tx.allocated device ++ trace.sock.tx.left device).Nodup
  | .flush _ => True

/-- The transmitter does not meet a null pointer, and a packet to send fits the mbuf that it is
given. -/
def Fits (trace : TxTrace) : Call → Prop
  | .send packet device =>
      trace.sock.tx.Unclogged device ∧
        ∀ mbuf ∈ trace.sock.tx.upcoming device,
          packet.length ≤ (trace.sock.mbufs mbuf).bufLen.toNat
  | .flush _ => True

instance (tx : Transmitter) (device : Device) : Decidable (tx.Unclogged device) :=
  inferInstanceAs (Decidable (if tx.readyBufs.isFull then 0 < device.burst ∨ device.alloc = none
    else tx.bufs.elems.getLast? ≠ some none))

instance (trace : TxTrace) (call : Call) : Decidable (trace.Allocates call) :=
  match call with
  | .send _ device => inferInstanceAs
      (Decidable (trace.sock.tx.allocated device ++ trace.sock.tx.left device).Nodup)
  | .flush _ => .isTrue trivial

instance (trace : TxTrace) (call : Call) : Decidable (trace.Fits call) :=
  match call with
  | .send packet device => inferInstanceAs
      (Decidable (trace.sock.tx.Unclogged device ∧ ∀ mbuf ∈ trace.sock.tx.upcoming device,
        packet.length ≤ (trace.sock.mbufs mbuf).bufLen.toNat))
  | .flush _ => .isTrue trivial

/-- A faithful trace whose mbufs are all different, those in stock being empty. -/
structure Streams (trace : TxTrace) : Prop where
  bounded : trace.sock.tx.Bounded
  distinct : (trace.sock.tx.inStock ++ trace.sock.tx.readyBufs.elems).Nodup
  blank : ∀ mbuf ∈ trace.sock.tx.inStock,
    (trace.sock.mbufs mbuf).dataLen = 0 ∧ (trace.sock.mbufs mbuf).pktLen = 0
  faithful : trace.Faithful

end TxTrace

/-! ## Filling an mbuf -/

theorem Mbuf.fill_carries {mbuf : Mbuf} {packet : List UInt8}
    (blank : mbuf.dataLen = 0 ∧ mbuf.pktLen = 0) (fits : packet.length ≤ mbuf.bufLen.toNat) :
    ∃ filled, mbuf.fill packet = .ok (filled, .ok ()) ∧ filled.Carries packet := by
  rcases Mbuf.fill_eq fits with ⟨exact, filled⟩
  refine ⟨_, filled, rfl, ?_, ?_, ?_⟩
  · simp only [blank.1, UInt16.zero_add, exact]
  · simp only [blank.2, UInt32.zero_add, UInt16.toNat_toUInt32, exact]
  · simp

theorem Mbuf.fill_tooBig {mbuf : Mbuf} {packet : List UInt8}
    (long : mbuf.bufLen.toNat < packet.length) :
    mbuf.fill packet = .error .copyLength ∨
      ∃ size, mbuf.fill packet = .ok (mbuf, .error (.tooBigPacket size)) := by
  simp only [Mbuf.fill]
  by_cases big : UInt16.ofNat packet.length > mbuf.bufLen
  · exact Or.inr ⟨_, if_pos big⟩
  · left
    rw [if_neg big, if_pos]
    intro exact
    rw [gt_iff_lt, UInt16.lt_iff_toNat_lt, exact] at big
    omega

namespace TxTrace

variable {trace next : TxTrace} {packet : List UInt8} {device : Device}

/-! ## One call -/

theorem afterAlloc_bufLen (sock : Sock) (device : Device) (mbuf : ℕ) :
    (sock.afterAlloc device mbuf).bufLen = (sock.mbufs mbuf).bufLen := by
  simp only [Sock.afterAlloc]
  split <;> rfl

theorem Streams.stock_distinct (streams : trace.Streams)
    (allocates : trace.Allocates (.send packet device)) :
    ((trace.sock.tx.inStock ++ trace.sock.tx.allocated device) ++
      trace.sock.tx.left device).Nodup := by
  by_cases full : trace.sock.tx.readyBufs.isFull = true
  · rw [Transmitter.inStock_eq_nil (streams.bounded.all_null full)]
    exact allocates
  · simp only [Transmitter.allocated, Transmitter.left, full, Bool.false_eq_true, if_false,
      List.append_nil]
    exact streams.distinct

theorem Streams.blank_stock (streams : trace.Streams) {mbuf : ℕ}
    (stocked : mbuf ∈ trace.sock.tx.inStock ++ trace.sock.tx.allocated device) :
    (trace.sock.afterAlloc device mbuf).dataLen = 0 ∧
      (trace.sock.afterAlloc device mbuf).pktLen = 0 := by
  simp only [Sock.afterAlloc]
  split
  · exact ⟨rfl, rfl⟩
  · rename_i old
    rcases List.mem_append.mp stocked with in_stock | fresh
    · exact streams.blank mbuf in_stock
    · exact absurd fresh old

/-- The bursts of a send take what they find ready, and leave the rest of it as it is. -/
theorem wire_send (trace : TxTrace) {sent atDrop rest : List ℕ}
    (allocates : trace.Allocates (.send packet device))
    (left : trace.sock.tx.left device = atDrop ++ rest)
    (ready : trace.sock.tx.readyBufs.elems = sent ++ trace.sock.tx.left device) :
    (sent.map trace.sock.mbufs ++ atDrop.map (trace.sock.afterAlloc device)) ++
        rest.map (trace.sock.afterAlloc device) =
      trace.sock.tx.readyBufs.elems.map trace.sock.mbufs := by
  have kept : ∀ mbuf ∈ trace.sock.tx.left device,
      trace.sock.afterAlloc device mbuf = trace.sock.mbufs mbuf := by
    intro mbuf mbuf_mem
    apply if_neg
    intro fresh
    exact (List.disjoint_of_nodup_append allocates) fresh mbuf_mem
  rw [List.append_assoc, ← List.map_append, ← left, List.map_congr_left kept, ← List.map_append,
    ← ready]

theorem bounded_of_send {sock : Sock} {outcome : Sock.Outcome} (bounded : sock.tx.Bounded)
    (unclogged : sock.tx.Unclogged device) (performed : sock.send packet device = .ok outcome) :
    outcome.sock.tx.Bounded := by
  rcases send_unclogged packet bounded unclogged with ⟨fault, failed, -⟩ | ⟨other, same, kept⟩
  · simp [performed] at failed
  · rw [performed, Except.ok.injEq] at same
    rw [same]
    exact kept

/-- The mbuf that is given to a send, those left in stock, and those left from the bursts. -/
theorem Streams.given_distinct {stock atDrop rest : List ℕ} {mbuf : ℕ} (streams : trace.Streams)
    (allocates : trace.Allocates (.send packet device))
    (taken : trace.sock.tx.inStock ++ trace.sock.tx.allocated device = stock ++ [mbuf])
    (left : trace.sock.tx.left device = atDrop ++ rest) : (mbuf :: (stock ++ rest)).Nodup := by
  have distinct := streams.stock_distinct allocates
  rw [taken, left] at distinct
  apply (distinct.sublist (List.Sublist.append_left (List.sublist_append_right atDrop rest) _)).perm
  rw [List.append_assoc]
  exact List.perm_middle

/-- A send whose packet fits its mbuf succeeds, or is given none, and the trace stays faithful. -/
theorem Streams.send (streams : trace.Streams) (allocates : trace.Allocates (.send packet device))
    (fits : trace.Fits (.send packet device)) :
    ∃ outcome next, trace.sock.send packet device = .ok outcome ∧
      (∀ size, outcome.result ≠ .error (.tooBigPacket size)) ∧
      trace.step (.send packet device) = some next ∧ next.Streams := by
  rcases fits with ⟨unclogged, fits⟩
  rcases Sock.send_cases packet streams.bounded unclogged with
    ⟨sent, atDrop, rest, left, ready, ⟨-, tx, empty, waiting, outcome⟩ |
      ⟨mbuf, tx, given, stock, waiting, outcome⟩⟩
  · refine ⟨_, ⟨⟨tx, trace.sock.afterAlloc device⟩, trace.sent, trace.wire ++
      (sent.map trace.sock.mbufs ++ atDrop.map (trace.sock.afterAlloc device))⟩, outcome, by simp,
      by simp only [step, outcome], ?_⟩
    refine ⟨bounded_of_send streams.bounded unclogged outcome, ?_, ?_, ?_⟩
    · have distinct := streams.stock_distinct allocates
      simp only [empty, waiting, List.nil_append]
      rw [left, ← List.append_assoc] at distinct
      exact distinct.of_append_right
    · simp [empty]
    · simp only [Faithful, waiting, List.append_assoc]
      rw [← List.append_assoc (sent.map _), wire_send trace allocates left ready]
      exact streams.faithful
  · have stocked := List.mem_of_getLast? given
    have room : packet.length ≤ (trace.sock.afterAlloc device mbuf).bufLen.toNat := by
      rw [afterAlloc_bufLen]
      exact fits mbuf given
    rcases Mbuf.fill_carries (streams.blank_stock stocked) room with ⟨filled, written, carries⟩
    simp only [written] at outcome
    refine ⟨_, ⟨⟨tx, Function.update (trace.sock.afterAlloc device) mbuf filled⟩,
      trace.sent ++ [packet], trace.wire ++
        (sent.map trace.sock.mbufs ++ atDrop.map (trace.sock.afterAlloc device))⟩, outcome, by simp,
      by simp only [step, outcome], ?_⟩
    have taken : trace.sock.tx.inStock ++ trace.sock.tx.allocated device =
        tx.inStock ++ [mbuf] := by
      rw [stock]
      exact (List.dropLast_append_getLast? mbuf given).symm
    have fewer := streams.given_distinct allocates taken left
    have apart : mbuf ∉ tx.inStock ∧ mbuf ∉ rest := by
      simpa using (List.nodup_cons.mp fewer).1
    refine ⟨bounded_of_send streams.bounded unclogged outcome, ?_, ?_, ?_⟩
    · apply fewer.perm
      simp only [waiting, ← List.append_assoc]
      exact (List.perm_append_singleton _ _).symm
    · intro other in_stock
      simp only [Function.update_of_ne (ne_of_mem_of_not_mem in_stock apart.1)]
      apply streams.blank_stock
      rw [taken]
      exact List.mem_append_left _ in_stock
    · have others : rest.map (Function.update (trace.sock.afterAlloc device) mbuf filled) =
          rest.map (trace.sock.afterAlloc device) := by
        apply List.map_congr_left
        intro other other_mem
        exact Function.update_of_ne (ne_of_mem_of_not_mem other_mem apart.2) _ _
      simp only [Faithful, waiting, List.map_append, List.map_cons, List.map_nil, others,
        Function.update_self]
      rw [← List.append_assoc, List.append_assoc trace.wire, wire_send trace allocates left ready]
      exact List.rel_append streams.faithful (.cons carries .nil)

theorem Streams.flush (streams : trace.Streams) (accepted : ℕ) :
    ∃ next, trace.step (.flush accepted) = some next ∧ next.Streams := by
  have ready := trace.sock.tx.flush_ready accepted
  refine ⟨_, rfl, streams.bounded.flush accepted, ?_, streams.blank, ?_⟩
  · have distinct := streams.distinct
    rw [ready] at distinct
    exact distinct.sublist (List.Sublist.append_left (List.sublist_append_right _ _) _)
  · have faithful := streams.faithful
    rw [Faithful, ready, List.map_append, ← List.append_assoc] at faithful
    exact faithful

theorem Streams.step {call : Call} (streams : trace.Streams) (allocates : trace.Allocates call)
    (fits : trace.Fits call) : ∃ next, trace.step call = some next ∧ next.Streams := by
  cases call with
  | flush accepted => exact streams.flush accepted
  | send packet device =>
      rcases streams.send allocates fits with ⟨-, next, -, -, stepped, kept⟩
      exact ⟨next, stepped, kept⟩

/-- A packet that does not fit panics, or leaves an mbuf behind that no packet was sent in. -/
theorem Streams.not_faithful_of_long {mbuf : ℕ} (streams : trace.Streams)
    (unclogged : trace.sock.tx.Unclogged device)
    (given : trace.sock.tx.upcoming device = some mbuf)
    (long : (trace.sock.mbufs mbuf).bufLen.toNat < packet.length)
    (stepped : trace.step (.send packet device) = some next) : ¬next.Faithful := by
  rcases Sock.send_cases packet streams.bounded unclogged with
    ⟨sent, atDrop, rest, left, ready, ⟨nothing, -⟩ | ⟨other, tx, given', -, waiting, outcome⟩⟩
  · simp [nothing] at given
  · rw [given, Option.some.injEq] at given'
    subst other
    rw [← afterAlloc_bufLen trace.sock device] at long
    rcases Mbuf.fill_tooBig long with failed | ⟨size, refused⟩
    · simp [TxTrace.step, outcome, failed] at stepped
    · simp only [TxTrace.step, outcome, refused, Option.some.injEq] at stepped
      rw [← stepped]
      intro faithful
      have before := streams.faithful.length_eq
      have after := faithful.length_eq
      simp only [ready, left, waiting, List.length_append, List.length_map, List.length_cons,
        List.length_nil] at before after
      omega

theorem stepFaithful_iff_fits {call : Call} (streams : trace.Streams)
    (allocates : trace.Allocates call) : trace.StepFaithful call ↔ trace.Fits call := by
  cases call with
  | flush accepted =>
      rcases streams.flush accepted with ⟨next, stepped, kept⟩
      refine ⟨fun _ => trivial, fun _ => ⟨⟨next, stepped, kept.faithful⟩, ?_⟩⟩
      intro packet device outcome other
      simp at other
  | send packet device =>
      constructor
      · rintro ⟨⟨next, stepped, faithful⟩, -⟩
        have unclogged : trace.sock.tx.Unclogged device := by
          by_contra clogged
          simp [TxTrace.step, Sock.send, Transmitter.advance_clogged streams.bounded clogged]
            at stepped
        refine ⟨unclogged, ?_⟩
        intro mbuf given
        by_contra long
        exact streams.not_faithful_of_long unclogged given (Nat.lt_of_not_le long) stepped faithful
      · intro fits
        rcases streams.send allocates fits with ⟨outcome, next, sent, accepted, stepped, kept⟩
        refine ⟨⟨next, stepped, kept.faithful⟩, ?_⟩
        intro packet' device' outcome' same sent'
        cases same
        rw [sent, Except.ok.injEq] at sent'
        subst outcome'
        constructor
        · rintro ⟨size, refused⟩
          exact absurd refused (accepted size)
        · rintro ⟨mbuf, given, long⟩
          have := fits.2 mbuf given
          omega

/-! ## Runs -/

theorem start_streams {fresh : ℕ → ℕ} {mbufs : ℕ → Mbuf}
    (distinct : ((List.range 32).map fresh).Nodup)
    (blank : ∀ lane < 32, (mbufs (fresh lane)).dataLen = 0 ∧ (mbufs (fresh lane)).pktLen = 0) :
    (start fresh mbufs).Streams := by
  have stock : (start fresh mbufs).sock.tx.inStock = (List.range 32).map fresh :=
    Sock.create_inStock fresh mbufs
  refine ⟨create_bounded fresh mbufs, ?_, ?_, .nil⟩
  · rw [stock]
    simpa [start, Sock.create, Transmitter.new] using distinct
  · rw [stock]
    intro mbuf mbuf_mem
    rcases List.mem_map.mp mbuf_mem with ⟨lane, lane_mem, rfl⟩
    exact blank lane (List.mem_range.mp lane_mem)

/-- In a run from freshly allocated mbufs every call is faithful exactly when no send meets a null
pointer and every packet fits the mbuf that its send is given. -/
theorem wire_faithful_iff {fresh : ℕ → ℕ} {mbufs : ℕ → Mbuf} {calls : List Call}
    (distinct : ((List.range 32).map fresh).Nodup)
    (blank : ∀ lane < 32, (mbufs (fresh lane)).dataLen = 0 ∧ (mbufs (fresh lane)).pktLen = 0)
    (allocates : RunMeets step Allocates (start fresh mbufs) calls) :
    RunMeets step StepFaithful (start fresh mbufs) calls ↔
      RunMeets step Fits (start fresh mbufs) calls := by
  apply runMeets_iff_of Streams
  · exact stepFaithful_iff_fits
  · intro trace next call streams allocates fits stepped
    rcases streams.step allocates fits with ⟨other, same, kept⟩
    rw [stepped, Option.some.injEq] at same
    exact same ▸ kept
  · exact start_streams distinct blank
  · exact allocates

/-- A NIC that accepts nothing until it is asked by a flush. -/
def lazy : Device := ⟨0, none, 0⟩

/-- Two packets that fit reach the NIC with the second flush. -/
theorem wire_faithful_two :
    RunMeets step StepFaithful (start id fun _ => emptyMbuf)
      [.send [1, 2, 3] lazy, .send [4] lazy, .flush 1, .flush 1] := by
  apply (wire_faithful_iff (by decide) (fun _ _ => ⟨rfl, rfl⟩) (by decide)).mpr
  decide

/-- Mbufs with a data room of four bytes. -/
def shortMbuf : Mbuf := ⟨4, 0, 0, 0, [0, 0, 0, 0]⟩

/-- A packet of five bytes is refused by a send to mbufs of four bytes, and an empty mbuf is on
the wire after the next flush, although nothing was sent. -/
theorem refused_packet_transmitted :
    ∃ trace next, (start id fun _ => shortMbuf).step (.send [1, 2, 3, 4, 5] lazy) = some trace ∧
      (∃ outcome, (start id fun _ => shortMbuf).sock.send [1, 2, 3, 4, 5] lazy = .ok outcome ∧
        outcome.result = .error (.tooBigPacket 5)) ∧
      trace.step (.flush 32) = some next ∧ next.sent = [] ∧ next.wire = [shortMbuf] ∧
      ¬RunMeets step StepFaithful (start id fun _ => shortMbuf)
        [.send [1, 2, 3, 4, 5] lazy, .flush 32] := by
  refine ⟨_, _, rfl, ⟨_, rfl, rfl⟩, rfl, rfl, rfl, ?_⟩
  rintro ⟨⟨⟨next, stepped, faithful⟩, -⟩, -⟩
  cases stepped
  have count := faithful.length_eq
  revert count
  decide

end TxTrace

end Nethuns.Dpdk
