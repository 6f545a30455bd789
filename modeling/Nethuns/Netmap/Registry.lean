import Mathlib.Data.Finset.Basic
import Mathlib.Data.Finset.Dedup
import Nethuns.Lib.Run
import Nethuns.Netmap.Port

/-!
# The registry of netmap ports

`Port::open` records the name of the port before anything that can fail, and nothing ever removes a
name: neither the failure exits of `open` nor the drop of a port. So the registry is the set of the
live ports only as long as no port is dropped and every open of a new name succeeds. A name that
was opened once, with or without success, can never be opened again.

What libnetmap answers is a parameter of the call: the descriptor that `nmport_prepare` returns, if
any, with the result of `nmport_open_desc` and what this leaves in the descriptor.
-/

namespace Nethuns.Netmap

open Nethuns.Lib

/-- `errors::Error` of `netmap_rs`. -/
inductive PortError
  | openError (message : String)
  | unknown
deriving DecidableEq

/-- `nmport_d`, after `nmport_open_desc` has returned `res`. -/
structure NmportD where
  res : ℤ
  nrExtraBufs : UInt32
  port : Port

/-- `allocate_port`: whether the name was new, and the names afterwards. -/
def allocatePort (s : String) (allocated : Finset String) : Bool × Finset String :=
  if s ∈ allocated then (false, allocated) else (true, insert s allocated)

/-- The first ring in the chain of the ring ranges. The outer `none` is the panic on a ring that
`rx_ring_at` or `tx_ring_at` does not know. -/
def Port.anyRing (port : Port) : Option (Option ℕ) :=
  if port.firstRxRing ≤ port.lastRxRing then
    (port.rawRxRingAt port.firstRxRing.toNat).map some
  else if port.firstTxRing ≤ port.lastTxRing then
    (port.rawTxRingAt port.firstTxRing.toNat).map some
  else
    some none

/-- The part of `Port::open` after the name has been recorded; `none` when it panics. -/
def openAllocated (portspec : String) (nExtrabuf : UInt32) (prepared : Option NmportD) :
    Option (Except PortError Port) :=
  if Char.ofNat 0 ∈ portspec.toList then
    some (.error (.openError "Failed to convert port spec to CString"))
  else
    match prepared with
    | none => some (.error (.openError "can't prepare port"))
    | some p =>
        if p.res < 0 then
          some (.error (.openError "can't open descriptor"))
        else if p.nrExtraBufs ≠ nExtrabuf then
          some (.error (.openError "can't allocate extrabuf"))
        else
          match p.port.anyRing with
          | none => none
          | some none => some (.error (.openError "Failed to get ring"))
          | some (some _) => some (.ok p.port)

/-- `Port::open`, with the names that are allocated afterwards. -/
def portOpen (allocated : Finset String) (portspec : String) (nExtrabuf : UInt32)
    (prepared : Option NmportD) : Option (Except PortError Port) × Finset String :=
  match allocatePort portspec allocated with
  | (false, allocated) => (some (.error (.openError "Port is already allocated")), allocated)
  | (true, allocated) => (openAllocated portspec nExtrabuf prepared, allocated)

/-- `ALLOCATED_PORTS` with the names of the live ports, in the order in which they were opened. -/
structure Ports where
  allocated : Finset String
  live : List String

inductive PortAction
  | openPort (portspec : String) (nExtrabuf : UInt32) (prepared : Option NmportD)
  | dropPort (position : ℕ)

namespace Ports

def start : Ports := ⟨∅, []⟩

/-- The ports after an open. Only a port that is returned is live. -/
def opened (ports : Ports) (portspec : String) :
    Option (Except PortError Port) × Finset String → Ports
  | (some (.ok _), allocated) => ⟨allocated, ports.live ++ [portspec]⟩
  | (some (.error _), allocated) | (none, allocated) => ⟨allocated, ports.live⟩

/-- `Port::drop` closes the descriptor and leaves the registry alone. -/
def step (ports : Ports) : PortAction → Option Ports
  | .openPort portspec nExtrabuf prepared =>
      some (ports.opened portspec (portOpen ports.allocated portspec nExtrabuf prepared))
  | .dropPort position =>
      if position < ports.live.length then
        some { ports with live := ports.live.eraseIdx position }
      else
        none

def Tracks (ports : Ports) : Prop := ports.allocated = ports.live.toFinset

instance (ports : Ports) : Decidable ports.Tracks := inferInstanceAs (Decidable (_ = _))

def StepTracks (ports : Ports) (action : PortAction) : Prop :=
  ∀ next, ports.step action = some next → next.Tracks

end Ports

/-- The first bound ring of the port is a ring of the NIC. -/
def Port.FirstRing (port : Port) : Prop :=
  (port.firstRxRing ≤ port.lastRxRing ∧ port.firstRxRing.toNat < port.niRxRings) ∨
    (port.lastRxRing < port.firstRxRing ∧ port.firstTxRing ≤ port.lastTxRing ∧
      port.firstTxRing.toNat < port.niTxRings)

/-- Every step of an open after `allocate_port` succeeds. -/
def Opens (portspec : String) (nExtrabuf : UInt32) (prepared : Option NmportD) : Prop :=
  Char.ofNat 0 ∉ portspec.toList ∧ ∃ p, prepared = some p ∧ 0 ≤ p.res ∧
    p.nrExtraBufs = nExtrabuf ∧ p.port.FirstRing

namespace Ports

/-- A name that is not allocated is opened with success, and no port is dropped. -/
def Lasting (ports : Ports) : PortAction → Prop
  | .openPort portspec nExtrabuf prepared =>
      portspec ∈ ports.allocated ∨ Opens portspec nExtrabuf prepared
  | .dropPort position => ports.live.length ≤ position

end Ports

theorem Port.anyRing_iff {port : Port} :
    (∃ ring, port.anyRing = some (some ring)) ↔ port.FirstRing := by
  simp only [FirstRing, anyRing, rawRxRingAt, rawTxRingAt]
  by_cases rx : port.firstRxRing ≤ port.lastRxRing
  · have notAfter : ¬port.lastRxRing < port.firstRxRing := UInt16.not_lt.mpr rx
    simp only [rx, if_true, true_and, notAfter, false_and, or_false]
    split
    · simp only [Option.map_none, reduceCtorEq, exists_false, false_iff]
      omega
    · simp only [Option.map_some, Option.some.injEq, exists_eq', true_iff]
      omega
  · have after : port.lastRxRing < port.firstRxRing := UInt16.not_le.mp rx
    simp only [rx, if_false, false_and, false_or, after, true_and]
    by_cases tx : port.firstTxRing ≤ port.lastTxRing
    · simp only [tx, if_true, true_and]
      split
      · simp only [Option.map_none, reduceCtorEq, exists_false, false_iff]
        omega
      · simp only [Option.map_some, Option.some.injEq, exists_eq', true_iff]
        omega
    · simp [tx]

theorem openAllocated_iff {portspec : String} {nExtrabuf : UInt32} {prepared : Option NmportD} :
    (∃ port, openAllocated portspec nExtrabuf prepared = some (.ok port)) ↔
      Opens portspec nExtrabuf prepared := by
  simp only [openAllocated, Opens]
  by_cases nul : Char.ofNat 0 ∈ portspec.toList
  · simp [nul]
  cases prepared with
  | none => simp [nul]
  | some p =>
      simp only [nul, if_false, not_false_eq_true, true_and, Option.some.injEq,
        exists_eq_left', ← Port.anyRing_iff]
      by_cases failed : p.res < 0
      · simp [failed, Int.not_le.mpr failed]
      by_cases short : p.nrExtraBufs ≠ nExtrabuf
      · simp [failed, short]
      rw [if_neg failed, if_neg short]
      have granted : p.nrExtraBufs = nExtrabuf := not_not.mp short
      rcases looked : p.port.anyRing with _ | _ | ring
      · simp
      · simp
      · simp [Int.not_lt.mp failed, granted]

namespace Ports

variable {ports next : Ports} {portspec : String} {nExtrabuf : UInt32}
  {prepared : Option NmportD}

/-- A name that is allocated is refused, and nothing changes. Any other name is allocated from now
on, but only a success makes it live. -/
theorem open_cases (stepped : ports.step (.openPort portspec nExtrabuf prepared) = some next) :
    (portspec ∈ ports.allocated ∧ next = ports) ∨
      (portspec ∉ ports.allocated ∧ next.allocated = insert portspec ports.allocated ∧
        ((Opens portspec nExtrabuf prepared ∧ next.live = ports.live ++ [portspec]) ∨
          (¬Opens portspec nExtrabuf prepared ∧ next.live = ports.live))) := by
  simp only [step, portOpen, allocatePort, Option.some.injEq] at stepped
  by_cases known : portspec ∈ ports.allocated
  · left
    rw [if_pos known] at stepped
    exact ⟨known, stepped.symm⟩
  · right
    rw [if_neg known] at stepped
    simp only at stepped
    have outcome := @openAllocated_iff portspec nExtrabuf prepared
    rcases opened : openAllocated portspec nExtrabuf prepared with _ | error | port
    all_goals
      rw [opened] at stepped outcome
      subst stepped
      refine ⟨known, rfl, ?_⟩
      simp only [reduceCtorEq, exists_false, false_iff, Option.some.injEq, Except.ok.injEq,
        exists_eq', true_iff] at outcome
    · exact Or.inr ⟨outcome, rfl⟩
    · exact Or.inr ⟨outcome, rfl⟩
    · exact Or.inl ⟨outcome, rfl⟩

theorem toFinset_snoc (names : List String) (name : String) :
    (names ++ [name]).toFinset = insert name names.toFinset := by
  ext other
  simp only [List.mem_toFinset, List.mem_append, List.mem_singleton, Finset.mem_insert, or_comm]

/-- A step keeps the registry in agreement with the live ports exactly when it is lasting. -/
theorem stepTracks_iff_lasting {action : PortAction} (tracks : ports.Tracks)
    (distinct : ports.live.Nodup) : ports.StepTracks action ↔ ports.Lasting action := by
  cases action with
  | openPort portspec nExtrabuf prepared =>
      simp only [Lasting]
      constructor
      · intro stepTracks
        have after := stepTracks _ rfl
        rcases open_cases rfl with ⟨known, -⟩ | ⟨unknown, allocated, cases⟩
        · exact Or.inl known
        · rcases cases with ⟨opens, -⟩ | ⟨-, live⟩
          · exact Or.inr opens
          · rw [Tracks, allocated, live, ← tracks] at after
            exact absurd (Finset.insert_eq_self.mp after) unknown
      · intro lasting next stepped
        rcases open_cases stepped with ⟨-, rfl⟩ | ⟨unknown, allocated, cases⟩
        · exact tracks
        · have opens := lasting.resolve_left unknown
          rcases cases with ⟨-, live⟩ | ⟨failed, -⟩
          · rw [Tracks, allocated, live, toFinset_snoc, ← tracks]
          · exact absurd opens failed
  | dropPort position =>
      simp only [Lasting]
      constructor
      · intro stepTracks
        by_contra inside
        have position_lt : position < ports.live.length := Nat.lt_of_not_le inside
        have after := stepTracks { ports with live := ports.live.eraseIdx position }
          (if_pos position_lt)
        have kept : ports.live[position] ∈ ports.live.eraseIdx position := by
          rw [← List.mem_toFinset, ← after, tracks, List.mem_toFinset]
          exact List.getElem_mem position_lt
        rcases List.mem_eraseIdx_iff_getElem.mp kept with ⟨other, other_lt, different, same⟩
        exact different (distinct.getElem_inj_iff.mp same)
      · intro outside next stepped
        simp [step, Nat.not_lt.mpr outside] at stepped

theorem Lasting.nodup {action : PortAction} (tracks : ports.Tracks) (distinct : ports.live.Nodup)
    (lasting : ports.Lasting action) (stepped : ports.step action = some next) :
    next.live.Nodup := by
  cases action with
  | openPort portspec nExtrabuf prepared =>
      rcases open_cases stepped with ⟨-, rfl⟩ | ⟨unknown, -, ⟨-, live⟩ | ⟨-, live⟩⟩
      · exact distinct
      · have absent : portspec ∉ ports.live := by
          rwa [← List.mem_toFinset, ← tracks]
        rw [live]
        exact distinct.append (List.nodup_singleton _) (List.disjoint_singleton.mpr absent)
      · rw [live]
        exact distinct
  | dropPort position =>
      simp only [Lasting] at lasting
      simp [step, Nat.not_lt.mpr lasting] at stepped

/-- In every sequence of opens and drops, the registry has the names of the live ports at every
moment exactly when all the steps are lasting. -/
theorem registry_tracks_iff (actions : List PortAction) :
    RunMeets step StepTracks start actions ↔ RunMeets step Lasting start actions := by
  apply runMeets_iff fun ports => ports.Tracks ∧ ports.live.Nodup
  · exact fun sound => stepTracks_iff_lasting sound.1 sound.2
  · intro ports next action sound lasting stepped
    exact ⟨(stepTracks_iff_lasting sound.1 sound.2).mpr lasting next stepped,
      lasting.nodup sound.1 sound.2 stepped⟩
  · exact ⟨rfl, List.nodup_nil⟩

theorem emptyRing_length : ([] : List Slot).length = (0 : UInt32).toNat := rfl

/-- A port with one receive ring and one transmit ring. -/
def oneRingPort : Port where
  niTxRings := 1
  niHostTxRings := 1
  niRxRings := 1
  niHostRxRings := 1
  firstTxRing := 0
  lastTxRing := 0
  firstRxRing := 0
  lastRxRing := 0
  niBufsHead := 0
  nrBufSize := 2048
  rings := fun _ => ⟨0, 0, 0, 0, [], emptyRing_length⟩
  bufs := fun _ => []

/-- After its port has been dropped, and after a failure too, a name is refused. -/
theorem dropped_port_stays_allocated :
    (∃ ports, run step start [.openPort "netmap:lo" 8 (some ⟨0, 8, oneRingPort⟩), .dropPort 0] =
        some ports ∧ ports.live = [] ∧
      portOpen ports.allocated "netmap:lo" 8 (some ⟨0, 8, oneRingPort⟩) =
        (some (.error (.openError "Port is already allocated")), {"netmap:lo"})) ∧
      (∃ ports, run step start [.openPort "netmap:lo" 8 none] = some ports ∧ ports.live = [] ∧
        portOpen ports.allocated "netmap:lo" 8 (some ⟨0, 8, oneRingPort⟩) =
          (some (.error (.openError "Port is already allocated")), {"netmap:lo"})) ∧
      ¬RunMeets step StepTracks start
        [.openPort "netmap:lo" 8 (some ⟨0, 8, oneRingPort⟩), .dropPort 0] ∧
      ¬RunMeets step StepTracks start [.openPort "netmap:lo" 8 none] := by
  refine ⟨⟨_, rfl, rfl, rfl⟩, ⟨_, rfl, rfl, rfl⟩, ?_, ?_⟩
  · rintro ⟨-, later⟩
    have after := (later _ rfl).1 _ rfl
    revert after
    decide
  · rintro ⟨tracks, -⟩
    have after := tracks _ rfl
    revert after
    decide

end Ports

end Nethuns.Netmap
