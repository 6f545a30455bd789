import Nethuns.ArrayVec

/-!
# The batched free-buffer channel

The `mpsc` crate carries buffer descriptors from any number of `Producer` handles to one
`Consumer`. A handle collects values in a local batch of 16. A full batch becomes one block of
16 lanes and goes to the queue of the thread that flushes it: the queues are created lazily,
one per thread, shared by all handles of the channel and registered with the consumer. The
consumer drains whole blocks into a cache of 1024 values and pops from the cache.

Values are the `usize` that the handles push. A queue stands for the `ringbuf` buffer, a
bounded FIFO of blocks named by its address; thread identifiers are those of `thread_local`,
which the crate reuses after a thread has ended. What an operation throws away is returned
beside the new channel, so that the fate of every value can be followed. An operation is
`none` when it panics, when its handle is not live, or when the allocator would hand out the
address of a live ring buffer, which it never does.
-/

namespace Nethuns.Mpsc

/-- `Simd<usize, 16>`: one block of values. -/
structure Simd where
  lanes : List ℕ
  length_lanes : lanes.length = 16
deriving DecidableEq

namespace Simd

/-- The values of a sequence of blocks, in order. -/
def flatten (blocks : List Simd) : List ℕ := blocks.flatMap lanes

@[simp]
theorem flatten_nil : flatten [] = [] := rfl

@[simp]
theorem flatten_cons (block : Simd) (blocks : List Simd) :
    flatten (block :: blocks) = block.lanes ++ flatten blocks := by
  simp [flatten]

@[simp]
theorem flatten_append (left right : List Simd) :
    flatten (left ++ right) = flatten left ++ flatten right := by
  simp [flatten]

theorem length_flatten (blocks : List Simd) : (flatten blocks).length = 16 * blocks.length := by
  induction blocks with
  | nil => simp
  | cons block blocks ih =>
      simp only [flatten_cons, List.length_append, block.length_lanes, ih, List.length_cons]
      omega

end Simd

/-- The blocks `to_simd` still yields when the lanes `filled` are already written. -/
def toSimdFrom (filled : List ℕ) : List ℕ → List Simd
  | [] => []
  | value :: rest =>
      if full : (filled ++ [value]).length = 16 then
        ⟨filled ++ [value], full⟩ :: toSimdFrom [] rest
      else
        toSimdFrom (filled ++ [value]) rest

/-- `to_simd`: the complete groups of 16; a shorter rest yields nothing. -/
def toSimd (values : List ℕ) : List Simd := toSimdFrom [] values

/-- The ring buffer of one thread, as its registered `spsc::Consumer` sees it. -/
structure Spsc where
  /-- `Arc::as_ptr` of the shared ring buffer. -/
  id : ℕ
  /-- The blocks not yet popped, oldest first. -/
  queue : List Simd
deriving DecidableEq

/-- `spsc::Producer::enqueue_many`: pushes blocks until the ring buffer is full. -/
def Spsc.enqueueMany (capacity : ℕ) (blocks : List Simd) (spsc : Spsc) : Spsc :=
  { spsc with queue := spsc.queue ++ blocks.take (capacity - spsc.queue.length) }

/-- The blocks that `enqueue_many` leaves in its iterator. -/
def Spsc.refused (capacity : ℕ) (blocks : List Simd) (spsc : Spsc) : List Simd :=
  blocks.drop (capacity - spsc.queue.length)

/-- The thread a call runs on, and the address that the allocator would give to a ring buffer
created during the call. -/
structure Site where
  thread : ℕ
  address : ℕ
deriving DecidableEq

/-- Values thrown away by an operation, with the reason. -/
inductive Discard
  /-- The lanes that `to_simd` leaves over when the batch is not full. -/
  | shortBatch (values : List ℕ)
  /-- A block that the ring buffer of the thread refused. -/
  | refused (block : Simd)
  /-- A block of a ring buffer that is unregistered with the last handle. -/
  | orphaned (block : Simd)
deriving DecidableEq

/-- The values lost with a discard. -/
def Discard.values : Discard → List ℕ
  | .shortBatch values => values
  | .refused block | .orphaned block => block.lanes

/-- A channel: the registry shared by both sides, the per-thread slots and the live handles of
the producing side, and the cache of the consumer. -/
structure Channel where
  /-- Capacity of each ring buffer, in blocks. -/
  singleSpscLen : ℕ
  /-- The consumers registered in the `ConsumerRegistry`. -/
  registry : ArrayVec Spsc 4096
  /-- The initialized `PerThreadInner` slots: a thread and the id of its ring buffer. -/
  perThread : List (ℕ × ℕ)
  /-- `local_batch` of the handles, by handle number; `none` for a dropped handle. -/
  producers : List (Option (ArrayVec ℕ 16))
  /-- `Consumer::cached`. -/
  cached : ArrayVec ℕ 1024
deriving DecidableEq

/-- `channel`: one handle and no ring buffer. -/
def channel (size : ℕ) : Channel where
  singleSpscLen := size
  registry := .new
  perThread := []
  producers := [some .new]
  cached := .new

theorem drainInto_length_le {cap : ℕ} (spsc : Spsc) (vec : ArrayVec ℕ cap) :
    (vec.elems ++ Simd.flatten (spsc.queue.take ((cap - vec.len) / 16))).length ≤ cap := by
  have bound := vec.length_le
  simp only [List.length_append, Simd.length_flatten, List.length_take, ArrayVec.len]
  omega

/-- One visit of `pop_all`: as many blocks as the vector has room for. -/
def drainInto {cap : ℕ} (spsc : Spsc) (vec : ArrayVec ℕ cap) : Spsc × ArrayVec ℕ cap :=
  let remaining := (cap - vec.len) / 16
  ({ spsc with queue := spsc.queue.drop remaining },
    ⟨vec.elems ++ Simd.flatten (spsc.queue.take remaining), drainInto_length_le spsc vec⟩)

/-- `pop_all`: visits the registered consumers in order. -/
def popAll {cap : ℕ} : List Spsc → ArrayVec ℕ cap → List Spsc × ArrayVec ℕ cap
  | [], vec => ([], vec)
  | spsc :: rest, vec =>
      let (spsc, vec) := drainInto spsc vec
      let (rest, vec) := popAll rest vec
      (spsc :: rest, vec)

theorem length_popAll {cap : ℕ} (registry : List Spsc) (vec : ArrayVec ℕ cap) :
    (popAll registry vec).1.length = registry.length := by
  induction registry generalizing vec with
  | nil => rfl
  | cons spsc rest ih => simp [popAll, ih]

/-- `ConsumerRegistry::remove`: `none` is the failed assertion on the length. -/
def remove (registry : ArrayVec Spsc 4096) (id : ℕ) : Option (ArrayVec Spsc 4096) :=
  let retained := registry.elems.filter fun spsc => spsc.id ≠ id
  if retained.length + 1 = registry.elems.length then
    some ⟨retained, (List.length_filter_le _ _).trans registry.length_le⟩
  else
    none

/-- Drops the `PerThreadInner` values one after the other. -/
def removeAll (registry : ArrayVec Spsc 4096) : List (ℕ × ℕ) → Option (ArrayVec Spsc 4096)
  | [] => some registry
  | (_, id) :: rest => (remove registry id).bind fun registry => removeAll registry rest

namespace Channel

/-- The local batch of a live handle. -/
def batch? (channel : Channel) (handle : ℕ) : Option (ArrayVec ℕ 16) :=
  channel.producers[handle]?.join

/-- Stores the local batch of a handle. -/
def setBatch (channel : Channel) (handle : ℕ) (batch : ArrayVec ℕ 16) : Channel :=
  { channel with producers := channel.producers.set handle (some batch) }

/-- The slot of the current thread in `flush`: the id of its ring buffer, which is created and
registered at the first use. The registry panics when it is full. -/
def slot (channel : Channel) (site : Site) : Option (Channel × ℕ) :=
  match channel.perThread.lookup site.thread with
  | some id => some (channel, id)
  | none =>
      if site.address ∈ channel.registry.elems.map Spsc.id then
        none
      else
        (channel.registry.tryPush ⟨site.address, []⟩).map fun registry =>
          ({ channel with
              registry := registry
              perThread := channel.perThread ++ [(site.thread, site.address)] },
            site.address)

/-- Hands blocks to the ring buffer with the given id. -/
def enqueueMany (channel : Channel) (id : ℕ) (blocks : List Simd) : Channel :=
  { channel with
    registry :=
      ⟨channel.registry.elems.map fun spsc =>
          if spsc.id = id then spsc.enqueueMany channel.singleSpscLen blocks else spsc,
        by simpa using channel.registry.length_le⟩ }

/-- The blocks that the ring buffer with the given id refuses. -/
def refused (channel : Channel) (id : ℕ) (blocks : List Simd) : List Simd :=
  match channel.registry.elems.find? fun spsc => spsc.id = id with
  | some spsc => spsc.refused channel.singleSpscLen blocks
  | none => blocks

/-- `Producer::flush`. Draining the batch empties it whatever becomes of the values. -/
def flush (channel : Channel) (handle : ℕ) (site : Site) : Option (Channel × List Discard) :=
  (channel.batch? handle).bind fun batch =>
    if batch.isEmpty then
      some (channel, [])
    else
      (channel.slot site).map fun (channel, id) =>
        let blocks := toSimd batch.elems
        let left := batch.elems.drop (16 * blocks.length)
        ((channel.enqueueMany id blocks).setBatch handle .new,
          (channel.refused id blocks).map .refused ++
            if left = [] then [] else [.shortBatch left])

/-- `Producer::push`: a full batch is flushed first. The loop of the source goes round at most
once, since `flush` leaves the batch empty. -/
def push (channel : Channel) (handle : ℕ) (site : Site) (value : ℕ) :
    Option (Channel × List Discard) :=
  (channel.batch? handle).bind fun batch =>
    match batch.tryPush value with
    | some batch => some (channel.setBatch handle batch, [])
    | none =>
        (channel.flush handle site).bind fun (channel, discards) =>
          ((channel.batch? handle).bind fun batch => batch.tryPush value).map fun batch =>
            (channel.setBatch handle batch, discards)

/-- Pushes values one after the other, as both sockets do with their buffers at creation. -/
def pushAll (channel : Channel) (handle : ℕ) (site : Site) :
    List ℕ → Option (Channel × List Discard)
  | [] => some (channel, [])
  | value :: values =>
      (channel.push handle site value).bind fun (channel, discards) =>
        (channel.pushAll handle site values).map fun (channel, more) =>
          (channel, discards ++ more)

/-- `Producer::clone`: the new handle shares the slots and starts with an empty batch. -/
def clone (channel : Channel) (handle : ℕ) : Option Channel :=
  (channel.batch? handle).map fun _ =>
    { channel with producers := channel.producers ++ [some .new] }

/-- Whether some handle is live, that is, whether the `Arc` of the slots is still held. -/
def alive (channel : Channel) : Bool := channel.producers.any Option.isSome

/-- `Producer::drop`: a flush, and with the last handle the destruction of the per-thread
slots, each of which unregisters its ring buffer. -/
def drop (channel : Channel) (handle : ℕ) (site : Site) : Option (Channel × List Discard) :=
  (channel.flush handle site).bind fun (channel, discards) =>
    let channel := { channel with producers := channel.producers.set handle none }
    if channel.alive then
      some (channel, discards)
    else
      (removeAll channel.registry channel.perThread).map fun registry =>
        ({ channel with registry := registry, perThread := [] },
          discards ++ channel.registry.elems.flatMap fun spsc => spsc.queue.map .orphaned)

/-- `Consumer::sync`. -/
def sync (channel : Channel) : Channel :=
  { channel with
    registry := ⟨(popAll channel.registry.elems channel.cached).1, by
      rw [length_popAll]
      exact channel.registry.length_le⟩
    cached := (popAll channel.registry.elems channel.cached).2 }

/-- `Consumer::pop`. -/
def pop (channel : Channel) : Option ℕ × Channel :=
  let channel := if channel.cached.isEmpty then channel.sync else channel
  let (value, cached) := channel.cached.pop
  (value, { channel with cached := cached })

/-- `Consumer::available_len`. -/
def availableLen (channel : Channel) : ℕ := channel.cached.len

end Channel

end Nethuns.Mpsc
