import Nethuns.Dpdk.Transmitter

/-!
# How long the DPDK transmitter lasts

When the NIC accepts every mbuf it is offered, `ready_bufs` is emptied at every send and never
holds more than the mbuf of the last packet. It is then never full, so `bufs`, which is only
restocked when `ready_bufs` is full, runs out: the transmitter serves exactly the 32 sends that
its first allocation stocked, and every later one fails with `NoPacket`, although each bulk
allocation would succeed.
-/

namespace Nethuns.Dpdk

open Nethuns.Lib

/-- The NIC accepts all it is offered, and a bulk allocation would succeed. -/
def Device.Generous (device : Device) : Prop :=
  32 ≤ device.burst ∧ 32 ≤ device.dropBurst ∧ device.alloc.isSome = true

/-- The NIC accepts all it is offered during the call, and a packet to send fits every mbuf. -/
def Call.Generous (bufLen : ℕ → UInt16) : Call → Prop
  | .send packet device => device.Generous ∧ ∀ mbuf, packet.length ≤ (bufLen mbuf).toNat
  | .flush accepted => 32 ≤ accepted

/-- `TransmitterIterMut::next` returns an mbuf, so that the send does not fail with
`NoPacket`. -/
def Served (sock : Sock) : Call → Prop
  | .send packet device =>
      (∃ mbuf rest, sock.tx.advance device = .ok (some mbuf, rest)) ∧
        ∀ outcome, sock.send packet device = .ok outcome → outcome.result ≠ .error .noPacket
  | .flush _ => True

/-- The number of sends among the calls. -/
def sends (calls : List Call) : ℕ :=
  calls.countP fun call =>
    match call with
    | .send _ _ => true
    | .flush _ => false

/-- Between two calls with a generous NIC: `stock` mbufs to hand out and at most one ready. -/
structure Stocked (bufLen : ℕ → UInt16) (stock : ℕ) (sock : Sock) : Prop where
  bufs : ∃ mbufs : List ℕ, mbufs.length = stock ∧ sock.tx.bufs.elems = mbufs.map some
  ready : sock.tx.readyBufs.elems.length ≤ 1
  rooms : ∀ mbuf, (sock.mbufs mbuf).bufLen = bufLen mbuf

theorem Transmitter.flush_generous (tx : Transmitter) {accepted : ℕ}
    (generous : 32 ≤ accepted) :
    (tx.flush accepted).2.readyBufs.elems = [] ∧ (tx.flush accepted).2.bufs = tx.bufs := by
  have := tx.readyBufs.length_le
  refine ⟨?_, rfl⟩
  simp only [Transmitter.flush, ArrayVec.drain]
  apply List.drop_eq_nil_of_le
  omega

variable {bufLen : ℕ → UInt16} {stock : ℕ} {sock : Sock}

theorem Stocked.notFull (stocked : Stocked bufLen stock sock) :
    sock.tx.readyBufs.isFull = false := by
  have := stocked.ready
  simp only [ArrayVec.isFull, ArrayVec.len, beq_eq_false_iff_ne]
  omega

theorem Stocked.flush (accepted : ℕ) (stocked : Stocked bufLen stock sock) :
    Stocked bufLen stock (sock.flush accepted).sock := by
  refine ⟨stocked.bufs, ?_, stocked.rooms⟩
  have := stocked.ready
  simp only [Sock.flush, Transmitter.flush, ArrayVec.drain, List.length_drop]
  omega

theorem Stocked.advance_zero (device : Device) (stocked : Stocked bufLen 0 sock) :
    sock.tx.advance device = .ok (none, sock.tx, [], []) := by
  rcases stocked.bufs with ⟨mbufs, none_left, stored⟩
  have empty : sock.tx.bufs.elems = [] := by
    simp [stored, List.length_eq_zero_iff.mp none_left]
  simp [Transmitter.advance, stocked.notFull, Transmitter.popBuf, ArrayVec.pop, empty]

theorem Stocked.advance_succ (device : Device) (stocked : Stocked bufLen (stock + 1) sock) :
    ∃ mbuf tx, sock.tx.advance device = .ok (some mbuf, tx, [], []) ∧
      tx.readyBufs = sock.tx.readyBufs ∧
      ∃ mbufs : List ℕ, mbufs.length = stock ∧ tx.bufs.elems = mbufs.map some := by
  rcases stocked.bufs with ⟨mbufs, length, stored⟩
  have nonempty : mbufs ≠ [] := by
    rintro rfl
    simp at length
  rcases List.eq_nil_or_concat mbufs with rfl | ⟨others, mbuf, split⟩
  · exact absurd rfl nonempty
  rw [List.concat_eq_append] at split
  subst mbufs
  have others_le : (others.map some).length ≤ 32 := by
    have := sock.tx.bufs.length_le
    simp only [stored, List.map_append, List.length_append, List.length_map] at this ⊢
    omega
  have popped : sock.tx.bufs.pop = (some (some mbuf), ⟨others.map some, others_le⟩) := by
    apply ArrayVec.pop_of_elems_append
    simp [stored]
  refine ⟨mbuf, { sock.tx with bufs := ⟨others.map some, others_le⟩ }, ?_, rfl, others, ?_, rfl⟩
  · simp [Transmitter.advance, stocked.notFull, Transmitter.popBuf, popped]
  · simpa using length

theorem Mbuf.fill_eq {mbuf : Mbuf} {packet : List UInt8}
    (fits : packet.length ≤ mbuf.bufLen.toNat) :
    (UInt16.ofNat packet.length).toNat = packet.length ∧
      mbuf.fill packet = .ok ({ mbuf with
        dataOff := 0
        dataLen := mbuf.dataLen + .ofNat packet.length
        pktLen := mbuf.pktLen + (UInt16.ofNat packet.length).toUInt32
        data := packet ++ mbuf.data.drop packet.length }, .ok ()) := by
  have small : packet.length < 65536 := by
    have := mbuf.bufLen.toNat_lt
    omega
  have exact : (UInt16.ofNat packet.length).toNat = packet.length := by
    simpa using Nat.mod_eq_of_lt small
  have notBig : ¬UInt16.ofNat packet.length > mbuf.bufLen := by
    rw [gt_iff_lt, UInt16.lt_iff_toNat_lt, exact]
    omega
  refine ⟨exact, ?_⟩
  simp only [Mbuf.fill, if_neg notBig, exact, ne_eq, not_true_eq_false, if_false]

theorem Mbuf.fill_fits {mbuf : Mbuf} {packet : List UInt8}
    (fits : packet.length ≤ mbuf.bufLen.toNat) :
    ∃ filled, mbuf.fill packet = .ok (filled, .ok ()) ∧ filled.bufLen = mbuf.bufLen :=
  ⟨_, (Mbuf.fill_eq fits).2, rfl⟩

/-- A send with stock succeeds and uses one mbuf of it. -/
theorem Stocked.send {packet : List UInt8} {device : Device}
    (stocked : Stocked bufLen (stock + 1) sock)
    (generous : (Call.send packet device).Generous bufLen) :
    ∃ outcome, sock.send packet device = .ok outcome ∧ outcome.result = .ok () ∧
      Stocked bufLen stock outcome.sock := by
  rcases generous with ⟨⟨-, dropBurst, -⟩, fits⟩
  rcases stocked.advance_succ device with ⟨mbuf, tx, advanced, ready, mbufs, length, stored⟩
  have fits_mbuf : packet.length ≤ (sock.mbufs mbuf).bufLen.toNat := by
    rw [stocked.rooms]
    exact fits mbuf
  rcases Mbuf.fill_fits fits_mbuf with ⟨filled, written, room⟩
  rcases tx.flush_generous dropBurst with ⟨flushed, kept⟩
  have single : [mbuf].length ≤ 32 := by simp
  have pushed : (tx.flush device.dropBurst).2.pushReady mbuf =
      .ok { (tx.flush device.dropBurst).2 with readyBufs := ⟨[mbuf], single⟩ } := by
    have grown : (tx.flush device.dropBurst).2.readyBufs.tryPush mbuf =
        some ⟨[mbuf], single⟩ := by
      rw [ArrayVec.tryPush_eq_some]
      simp [flushed]
    simp [Transmitter.pushReady, grown]
  have sent : sock.send packet device =
      .ok ⟨⟨{ (tx.flush device.dropBurst).2 with readyBufs := ⟨[mbuf], single⟩ },
          Function.update sock.mbufs mbuf filled⟩, .ok (),
        (tx.flush device.dropBurst).1.map sock.mbufs⟩ := by
    simp [Sock.send, advanced, written, pushed]
  refine ⟨_, sent, rfl, ⟨mbufs, length, stored⟩, by simp, ?_⟩
  intro other
  by_cases same : other = mbuf
  · subst other
    simp [room, stocked.rooms]
  · simp [Function.update_of_ne same, stocked.rooms]

/-- From a stock of mbufs, exactly that many sends are served. -/
theorem Stocked.served_iff {calls : List Call} (stocked : Stocked bufLen stock sock)
    (generous : ∀ call ∈ calls, call.Generous bufLen) :
    RunMeets Sock.step Served sock calls ↔ sends calls ≤ stock := by
  induction calls generalizing sock stock with
  | nil => simp [RunMeets, sends]
  | cons call calls ih =>
      simp only [List.forall_mem_cons] at generous
      rcases generous with ⟨now, later⟩
      cases call with
      | flush accepted =>
          have rest := ih (stocked.flush accepted) later
          simpa [RunMeets, Served, Sock.step, sends, List.countP_cons] using rest
      | send packet device =>
          have one_more : sends (.send packet device :: calls) = sends calls + 1 := by
            simp [sends]
          cases stock with
          | zero =>
              rw [one_more]
              constructor
              · rintro ⟨⟨⟨mbuf, rest, given⟩, -⟩, -⟩
                rw [stocked.advance_zero device] at given
                simp at given
              · omega
          | succ stock =>
              rcases stocked.send now with ⟨outcome, sent, ok, stocked'⟩
              have stepped : sock.step (.send packet device) = some outcome.sock := by
                simp [Sock.step, sent]
              have served : Served sock (.send packet device) := by
                rcases stocked.advance_succ device with ⟨mbuf, tx, advanced, -⟩
                refine ⟨⟨mbuf, _, advanced⟩, ?_⟩
                intro other sent'
                rw [sent, Except.ok.injEq] at sent'
                rw [← sent', ok]
                simp
              have rest := ih stocked' later
              rw [one_more]
              simp only [RunMeets, served, true_and, stepped, Option.some.injEq,
                forall_eq', rest]
              omega

theorem create_stocked (fresh : ℕ → ℕ) (mbufs : ℕ → Mbuf) :
    Stocked (fun mbuf => (mbufs mbuf).bufLen) 32 (Sock.create fresh mbufs) := by
  refine ⟨⟨(List.range 32).map fresh, by simp, ?_⟩, ?_, fun _ => rfl⟩
  · simp [Sock.create, Transmitter.new, Function.comp_def]
  · simp [Sock.create, Transmitter.new]

/-- With a generous NIC the sends are all served exactly when there are at most 32 of them. -/
theorem all_sends_served_iff {fresh : ℕ → ℕ} {mbufs : ℕ → Mbuf} {calls : List Call}
    (generous : ∀ call ∈ calls, call.Generous fun mbuf => (mbufs mbuf).bufLen) :
    RunMeets Sock.step Served (Sock.create fresh mbufs) calls ↔ sends calls ≤ 32 :=
  (create_stocked fresh mbufs).served_iff generous

/-- A NIC that accepts everything, with a pool that always has mbufs. -/
def plentiful : Device := ⟨32, some fun lane => 100 + lane, 32⟩

/-- An mbuf with a data room of 2048 bytes. -/
def emptyMbuf : Mbuf := ⟨2048, 0, 0, 0, []⟩

theorem all_sends_served_two :
    RunMeets Sock.step Served (Sock.create id fun _ => emptyMbuf)
      [.send [1, 2, 3] plentiful, .flush 32, .send [4] plentiful] := by
  rw [all_sends_served_iff]
  · decide
  · simp [Call.Generous, Device.Generous, plentiful, emptyMbuf]

/-- The 33rd send in a row finds no mbuf, although the NIC accepted all it was offered. -/
theorem thirtyThird_send_noPacket :
    (∀ call ∈ List.replicate 33 (Call.send [1, 2, 3] plentiful),
        call.Generous fun _ => emptyMbuf.bufLen) ∧
      ¬RunMeets Sock.step Served (Sock.create id fun _ => emptyMbuf)
        (List.replicate 33 (.send [1, 2, 3] plentiful)) ∧
      ∃ sock outcome, run Sock.step (Sock.create id fun _ => emptyMbuf)
          (List.replicate 32 (.send [1, 2, 3] plentiful)) = some sock ∧
        sock.send [1, 2, 3] plentiful = .ok outcome ∧ outcome.result = .error .noPacket := by
  have generous : ∀ call ∈ List.replicate 33 (Call.send [1, 2, 3] plentiful),
      call.Generous fun _ => emptyMbuf.bufLen := by
    simp [Call.Generous, Device.Generous, plentiful, emptyMbuf]
  refine ⟨generous, ?_, _, _, rfl, rfl, rfl⟩
  intro served
  have := ((create_stocked id fun _ => emptyMbuf).served_iff generous).mp served
  simp [sends] at this

end Nethuns.Dpdk
