import ArchState.Memory.Basic

/-! # The heap

Requests are served one after the other from the heap's base upwards, in whole words, as long
as they end inside the data segment.
-/
namespace ArchState.Memory

def allocate (m : Memory) (size : Int) : Except HeapFault (UInt32 × Memory) :=
  if size < 0 then .error (.negativeSize size)
  else
    let next := (m.heap.toNat + size.toNat + 3) / 4 * 4
    if next < 0x100000000 ∧ next ≤ m.segments.data.stop then
      .ok (m.heap, { m with heap := UInt32.ofNat next })
    else .error (.exhausted size)

end ArchState.Memory
