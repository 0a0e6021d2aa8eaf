import RedoxDrivers.Lib.Rust

/-!
The memory of a split virtqueue and the buffers a driver chains into it
(`virtio-core/src/spec/split_virtqueue.rs`).

A request is a chain of descriptors: each carries the `NEXT` flag and the index
of its successor, and the last one carries no `NEXT`. `ChainBuilder` sets the
flags; the indices are filled in by `Queue.send` (`RedoxDrivers.Virtio.Transport`).

* `Terminated` says where a list of buffers carries `NEXT`; `build_terminated`
  shows that `ChainBuilder` produces nothing else.
* `Linked` says that a list of indices is a chain of the descriptor table, and
  `Linked.congr` that it depends on the descriptors of the chain only.
-/

namespace RedoxDrivers.Virtio

open Lib List

/-! ### Flags and descriptors -/

/-- The bits of a `DescriptorFlags`, which may include undeclared ones. -/
structure DescriptorFlags where
  bits : U16
deriving DecidableEq, Repr

namespace DescriptorFlags

def next : DescriptorFlags := ⟨1 <<< 0⟩
def writeOnly : DescriptorFlags := ⟨1 <<< 1⟩
def indirect : DescriptorFlags := ⟨1 <<< 2⟩
def empty : DescriptorFlags := ⟨0⟩

/-- Keeps the declared flags only. -/
def fromBitsTruncate (bits : U16) : DescriptorFlags :=
  ⟨bits &&& (next.bits ||| writeOnly.bits ||| indirect.bits)⟩

def contains (self other : DescriptorFlags) : Bool := self.bits &&& other.bits == other.bits

/-- The operator `|=`. -/
def union (self other : DescriptorFlags) : DescriptorFlags := ⟨self.bits ||| other.bits⟩

def remove (self other : DescriptorFlags) : DescriptorFlags := ⟨self.bits &&& ~~~other.bits⟩

end DescriptorFlags

/-- An entry of the descriptor table. -/
structure Descriptor where
  address : U64
  size : U32
  flags : U16
  next : U16
deriving DecidableEq, Repr

namespace Descriptor

def zeroed : Descriptor := ⟨0, 0, 0, 0⟩

section

variable (self : Descriptor)

def setAddr (addr : U64) : Descriptor := { self with address := addr }
def setSize (size : U32) : Descriptor := { self with size := size }
def setNext (next : Option U16) : Descriptor :=
  { self with next := next.getD 0 }
def setFlags (flags : DescriptorFlags) : Descriptor :=
  { self with flags := flags.bits }

/-- The method `flags`. -/
def getFlags : DescriptorFlags := .fromBitsTruncate self.flags

/-- The descriptor continues via its `next` field. -/
def hasNext : Bool := self.getFlags.contains .next

end

@[simp] theorem setNext_hasNext (d : Descriptor) (n : Option U16) :
    (d.setNext n).hasNext = d.hasNext := rfl

end Descriptor

/-- An element of the used ring, written by the device. -/
structure UsedRingElement where
  tableIndex : U32
  written : U32
deriving DecidableEq, Repr

/-! ### Buffers and chains -/

structure Buffer where
  buffer : U64
  size : U64
  flags : DescriptorFlags
deriving DecidableEq, Repr

/-- The descriptor of a buffer continues once its flags are stored. -/
def Buffer.hasNext (self : Buffer) : Bool :=
  (DescriptorFlags.fromBitsTruncate self.flags.bits).contains .next

structure ChainBuilder where
  buffers : List Buffer
deriving DecidableEq, Repr

namespace ChainBuilder

def new : ChainBuilder := ⟨[]⟩

def chain (self : ChainBuilder) (buffer : Buffer) : ChainBuilder :=
  ⟨self.buffers ++ [{ buffer with flags := buffer.flags.union .next }]⟩

def build (self : ChainBuilder) : Except Fault (List Buffer) := do
  let lastBuffer ← unwrap self.buffers.getLast?
  return self.buffers.dropLast ++ [{ lastBuffer with flags := lastBuffer.flags.remove .next }]

/-- The chain of the given buffers, as every caller builds it: `new`, one
`chain` for each buffer, `build`. -/
def ofBuffers (buffers : List Buffer) : Except Fault (List Buffer) :=
  (buffers.foldl chain new).build

end ChainBuilder

/-- `NEXT` is set on every buffer but the last. -/
def Terminated : List Buffer → Prop
  | [] => False
  | [b] => b.hasNext = false
  | b :: rest => b.hasNext = true ∧ Terminated rest

theorem hasNext_chain (b : Buffer) :
    Buffer.hasNext { b with flags := b.flags.union .next } = true := by
  have hbits : (b.flags.bits ||| 1) &&& 7 &&& 1 = (1 : U16) := by
    ext i hi
    grind
  simpa [Buffer.hasNext, DescriptorFlags.union, DescriptorFlags.contains,
    DescriptorFlags.fromBitsTruncate, DescriptorFlags.next, DescriptorFlags.writeOnly,
    DescriptorFlags.indirect] using hbits

theorem hasNext_build (b : Buffer) :
    Buffer.hasNext { b with flags := b.flags.remove .next } = false := by
  have hbits : b.flags.bits &&& ~~~1 &&& 7 &&& 1 = (0 : U16) := by
    ext i hi
    grind
  have hne : ¬ (b.flags.bits &&& ~~~1 &&& 7 &&& 1 = (1 : U16)) := by
    rw [hbits]
    decide
  simpa [Buffer.hasNext, DescriptorFlags.remove, DescriptorFlags.contains,
    DescriptorFlags.fromBitsTruncate, DescriptorFlags.next, DescriptorFlags.writeOnly,
    DescriptorFlags.indirect] using hne

theorem terminated_snoc {bs : List Buffer} {b : Buffer} (hbs : ∀ c ∈ bs, c.hasNext = true)
    (hb : b.hasNext = false) : Terminated (bs ++ [b]) := by
  induction bs with
  | nil => exact hb
  | cons c rest ih =>
    have hrest : Terminated (rest ++ [b]) :=
      ih fun x hx => hbs x (mem_cons_of_mem _ hx)
    cases rest with
    | nil | cons => exact ⟨hbs c mem_cons_self, hrest⟩

/-- Every buffer a builder holds carries `NEXT`. -/
theorem foldl_chain_hasNext (buffers : List Buffer) (cb : ChainBuilder)
    (hcb : ∀ b ∈ cb.buffers, b.hasNext = true) :
    ∀ b ∈ (buffers.foldl ChainBuilder.chain cb).buffers, b.hasNext = true := by
  induction buffers generalizing cb with
  | nil => exact hcb
  | cons b rest ih =>
    refine ih (cb.chain b) fun c hc => ?_
    rcases mem_append.mp hc with hc | hc
    · exact hcb c hc
    · obtain rfl := mem_singleton.mp hc
      exact hasNext_chain b

theorem build_terminated {buffers chain : List Buffer}
    (h : ChainBuilder.ofBuffers buffers = .ok chain) : Terminated chain := by
  obtain ⟨last, -, hchain⟩ := bind_eq_ok.mp h
  have hnext := foldl_chain_hasNext buffers ChainBuilder.new (by simp [ChainBuilder.new])
  cases hchain
  exact terminated_snoc (fun c hc => hnext c (dropLast_subset _ hc)) (hasNext_build last)

/-! ### Chains of the descriptor table -/

/-- `chain` is a chain of `table`: every descriptor but the last continues with
the next index, and the last one does not continue. -/
def Linked (table : List Descriptor) : List U16 → Prop
  | [] => False
  | [i] => ∃ d, table[i.toNat]? = some d ∧ d.hasNext = false
  | i :: j :: rest =>
    (∃ d, table[i.toNat]? = some d ∧ d.hasNext = true ∧ d.next = j) ∧ Linked table (j :: rest)

/-- A chain only depends on its own descriptors. -/
theorem Linked.congr {table table' : List Descriptor} {chain : List U16}
    (same : ∀ i ∈ chain, table'[i.toNat]? = table[i.toNat]?) (h : Linked table chain) :
    Linked table' chain := by
  induction chain with
  | nil => exact h
  | cons i rest ih =>
    cases rest with
    | nil =>
      obtain ⟨d, hd, hnext⟩ := h
      exact ⟨d, (same i mem_cons_self).trans hd, hnext⟩
    | cons =>
      obtain ⟨⟨d, hd, hnext, hj⟩, hrest⟩ := h
      exact ⟨⟨d, (same i mem_cons_self).trans hd, hnext, hj⟩,
        ih (fun k hk => same k (mem_cons_of_mem _ hk)) hrest⟩

end RedoxDrivers.Virtio
