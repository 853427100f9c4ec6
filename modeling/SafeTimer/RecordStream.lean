/-
Records of one size in a stream that is cut into chunks, and a reader that takes the
first bytes of each chunk for a record.  It finds different records only if every chunk is
one record; if the stream is cut between records, it finds the first of each chunk.
-/
import Mathlib.Algebra.BigOperators.Group.List.Basic
import Mathlib.Algebra.Group.Nat.Defs
import Mathlib.Data.List.Flatten
import Mathlib.Data.List.Perm.Subperm

namespace SafeTimer

variable {α : Type}

/-- Each chunk is one record. -/
def OneRecordEach (size : Nat) (chunks : List (List α)) : Prop :=
  ∀ chunk ∈ chunks, chunk.length = size

instance (size : Nat) (chunks : List (List α)) : Decidable (OneRecordEach size chunks) :=
  inferInstanceAs (Decidable (∀ chunk ∈ chunks, _))

section Records

variable {size : Nat} {chunks records : List (List α)}

theorem length_flatten_ge (hlong : ∀ chunk ∈ chunks, size ≤ chunk.length) :
    size * chunks.length ≤ chunks.flatten.length := by
  induction chunks with
  | nil => simp
  | cons chunk rest ih =>
      have hrest := ih fun chunk' hmem => hlong chunk' (List.mem_cons_of_mem chunk hmem)
      have hchunk := hlong chunk List.mem_cons_self
      rw [List.flatten_cons, List.length_append, List.length_cons, Nat.mul_succ]
      omega

/-- As many chunks as the stream has room for: each has the size of a record. -/
theorem oneRecordEach_of_length (hlong : ∀ chunk ∈ chunks, size ≤ chunk.length)
    (hfull : chunks.flatten.length ≤ size * chunks.length) : OneRecordEach size chunks := by
  induction chunks with
  | nil =>
      intro chunk hmem
      cases hmem
  | cons chunk rest ih =>
      have hlongRest : ∀ chunk' ∈ rest, size ≤ chunk'.length :=
        fun chunk' hmem => hlong chunk' (List.mem_cons_of_mem chunk hmem)
      have hrest := length_flatten_ge hlongRest
      have hchunk := hlong chunk List.mem_cons_self
      rw [List.flatten_cons, List.length_append, List.length_cons, Nat.mul_succ] at hfull
      intro chunk' hmem
      rcases List.mem_cons.mp hmem with rfl | htail
      · omega
      · exact ih hlongRest (by omega) chunk' htail

theorem OneRecordEach.length_flatten (hone : OneRecordEach size chunks) :
    chunks.flatten.length = size * chunks.length := by
  have hsizes : ∀ n ∈ chunks.map List.length, n = size := by
    intro n hmem
    obtain ⟨chunk, hchunk, rfl⟩ := List.mem_map.mp hmem
    exact hone chunk hchunk
  rw [List.length_flatten, List.sum_eq_card_nsmul _ size hsizes, List.length_map, Nat.nsmul_eq_mul,
    Nat.mul_comm]

/-- Chunks of one record each are the records. -/
theorem OneRecordEach.eq_records (hone : OneRecordEach size chunks) (hpos : 0 < size)
    (hrecords : OneRecordEach size records) (hstream : chunks.flatten = records.flatten) :
    chunks = records := by
  have hcount : chunks.length = records.length := by
    have hlength := congrArg List.length hstream
    rw [hone.length_flatten, hrecords.length_flatten] at hlength
    exact Nat.eq_of_mul_eq_mul_left hpos hlength
  have hsizes : ∀ {lists : List (List α)}, OneRecordEach size lists →
      lists.map List.length = List.replicate lists.length size := by
    intro lists heach
    rw [List.eq_replicate_iff, List.length_map]
    exact ⟨rfl, List.forall_mem_map.mpr heach⟩
  rw [List.eq_iff_flatten_eq]
  exact ⟨hstream, by rw [hsizes hone, hsizes hrecords, hcount]⟩

/-- Different records are all found only if each has a chunk of its own. -/
theorem oneRecordEach_of_subset_heads (hlong : ∀ chunk ∈ chunks, size ≤ chunk.length)
    (hrecords : OneRecordEach size records) (hnodup : records.Nodup)
    (hstream : chunks.flatten = records.flatten)
    (hsubset : records ⊆ chunks.map (List.take size)) : OneRecordEach size chunks := by
  apply oneRecordEach_of_length hlong
  -- every record begins a chunk, so there are enough chunks to fill the stream
  have hcount := (hnodup.subperm hsubset).length_le
  rw [List.length_map] at hcount
  rw [hstream, hrecords.length_flatten]
  exact Nat.mul_le_mul_left size hcount

/-- The first records and the rest of them, in the stream. -/
theorem OneRecordEach.split_flatten (hrecords : OneRecordEach size records) {count : Nat}
    (hle : count ≤ records.length) :
    records.flatten.take (size * count) = (records.take count).flatten ∧
      records.flatten.drop (size * count) = (records.drop count).flatten := by
  have htake : OneRecordEach size (records.take count) :=
    fun record hmem => hrecords record (List.mem_of_mem_take hmem)
  have hsum : ((records.map List.length).take count).sum = size * count := by
    rw [← List.map_take, ← List.length_flatten, htake.length_flatten, List.length_take,
      Nat.min_eq_left hle]
  rw [← hsum]
  exact ⟨List.take_sum_flatten records count, List.drop_sum_flatten records count⟩

/-- Where a stream is cut between records, a chunk begins with a record. -/
theorem take_mem_records (hpos : 0 < size) (hrecords : OneRecordEach size records)
    (hstream : chunks.flatten = records.flatten)
    (hcuts : ∀ chunk ∈ chunks, size ∣ chunk.length) :
    ∀ chunk ∈ chunks, chunk ≠ [] → chunk.take size ∈ records := by
  induction chunks generalizing records with
  | nil =>
      intro chunk hmem
      cases hmem
  | cons chunk rest ih =>
      obtain ⟨count, hcount⟩ := hcuts chunk List.mem_cons_self
      rw [List.flatten_cons] at hstream
      have hle : count ≤ records.length := by
        have hlength := congrArg List.length hstream
        rw [List.length_append, hcount, hrecords.length_flatten] at hlength
        exact Nat.le_of_mul_le_mul_left (Nat.le.intro hlength) hpos
      obtain ⟨hfirst, hlast⟩ := hrecords.split_flatten hle
      rw [← hstream, ← hcount, List.take_left] at hfirst
      rw [← hstream, ← hcount, List.drop_left] at hlast
      intro chunk' hmem hdata
      rcases List.mem_cons.mp hmem with rfl | htail
      · -- the chunk has a first record, since it is not empty
        cases htake : records.take count with
        | nil =>
            rw [htake] at hfirst
            exact absurd hfirst hdata
        | cons record others =>
            have hrecord : record ∈ records :=
              List.mem_of_mem_take (htake ▸ List.mem_cons_self)
            rw [hfirst, htake, List.flatten_cons, List.take_left' (hrecords record hrecord)]
            exact hrecord
      · have hrest : OneRecordEach size (records.drop count) :=
          fun record hmem => hrecords record (List.mem_of_mem_drop hmem)
        exact List.mem_of_mem_drop (ih hrest hlast
          (fun chunk hmem => hcuts chunk (List.mem_cons_of_mem _ hmem)) chunk' htail hdata)

end Records

end SafeTimer
