import Mathlib.Data.List.Defs
import StoreForward.Batcher

/-!
# Batches carry every sample, in order

A sampler hands its samples to a `Batcher` one at a time and may flush it at
any moment. Nothing comes back from pushing a sample except, now and then, a
full batch; a sample pushed onto a batch that has no room would be gone
without a trace. Whether that can happen depends on the batcher alone: it
never does, because a batch leaves as soon as it is full.

A batcher together with the batches it has put out stands for one list, the
samples of those batches followed by those still gathered (`emitted`). Pushing
appends to that list and flushing leaves it alone (`apply_emitted`), whatever
leaves with it. Everything here follows from that and from `HasRoom`, which
each use needs and restores.

Where a batch ends is settled by `List.toChunks`. The batches put out on the
way are full and the last one is not empty, and a list falls apart into such
pieces in one way only (`toChunks_flatten`), so the cuts are where
`List.toChunks` makes them.

## Main definitions

* `Batcher.Use`, `Batcher.applyAll` — a producer's dealings with a batcher.
* `Batcher.HasRoom` — the next sample fits.
* `Batcher.emitted` — the samples put out, and those still gathered.

## Main results

* `Batch.ofList_eq_foldl` — collecting a list is pushing its first ten samples.
* `Batcher.batches_carry_all_samples` — nothing is lost or reordered, a batch
  comes out full or flushed, and a list comes out cut into tens.
-/

namespace StoreForward

/-! ## Cutting a list into pieces -/

section Chunks

variable {α : Type} {n : Nat}

/-- The piece under way is filled up before the rest is cut. -/
theorem toChunks_go (rest : List α) (piece : Array α) (done : Array (List α))
    (fits : piece.size ≤ n + 1) :
    List.toChunks.go (n + 1) rest piece done = done.toList ++
      (piece.toList ++ rest.take (n + 1 - piece.size)) ::
        (rest.drop (n + 1 - piece.size)).toChunks (n + 1) := by
  induction rest generalizing piece done with
  | nil => simp [List.toChunks.go, List.toChunks]
  | cons a rest ih =>
    simp only [List.toChunks.go]
    by_cases full : piece.size = n + 1
    · -- The next piece starts as `toChunks` starts on what is left.
      have anew : (a :: rest).toChunks (n + 1)
          = (a :: rest.take n) :: (rest.drop n).toChunks (n + 1) := by
        rw [List.toChunks, ih #[a] #[] (by simp)]
        · simp
        · simp
      rw [if_pos (by simpa using full), ih _ _ (by simp)]
      simp [full, anew]
    · have room : n + 1 - piece.size = (n + 1 - (piece.push a).size) + 1 := by
        simp
        omega
      rw [if_neg (by simpa using full), ih _ _ (by simp; omega), room]
      simp

theorem toChunks_eq {items : List α} (nonempty : items ≠ []) :
    items.toChunks (n + 1) = items.take (n + 1) :: (items.drop (n + 1)).toChunks (n + 1) := by
  cases items with
  | nil => exact absurd rfl nonempty
  | cons a rest =>
    rw [List.toChunks, toChunks_go rest #[a] #[] (by simp)]
    · simp
    · simp

/-- Full pieces are found again in the list they make up. -/
theorem toChunks_flatten {pieces : List (List α)} (full : ∀ piece ∈ pieces, piece.length = n + 1)
    (rest : List α) :
    (pieces.flatten ++ rest).toChunks (n + 1) = pieces ++ rest.toChunks (n + 1) := by
  induction pieces with
  | nil => rfl
  | cons piece pieces ih =>
    have size := full piece (by simp)
    have nonempty : (piece :: pieces).flatten ++ rest ≠ [] := by
      rintro empty
      simp only [List.flatten_cons, List.append_assoc, List.append_eq_nil_iff] at empty
      rw [empty.1] at size
      cases size
    rw [toChunks_eq nonempty, List.flatten_cons, List.append_assoc, List.take_left' size,
      List.drop_left' size, ih fun other among => full other (by simp [among])]
    rfl

/-- What is left at the end is one piece, or none. -/
theorem toChunks_of_fits {items : List α} (fits : items.length ≤ n + 1) :
    items.toChunks (n + 1) = if items = [] then [] else [items] := by
  split
  case isTrue empty =>
    rw [empty]
    rfl
  case isFalse nonempty =>
    rw [toChunks_eq nonempty, List.take_of_length_le fits, List.drop_eq_nil_of_le fits]
    rfl

end Chunks

/-! ## Pushing onto a batch with room -/

namespace Batch

theorem samples_getD_push? {b : Batch} (room : b.length < batchCapacity) (s : Sample) :
    ((b.push? s).getD b).samples = b.samples ++ [s] := by
  cases pushed : b.push? s with
  | none =>
    have full := (push?_eq_none_iff b s).mp pushed
    omega
  | some c => exact samples_push? pushed

theorem samples_foldl_push? {b : Batch} {samples : List Sample}
    (fits : b.length + samples.length ≤ batchCapacity) :
    (samples.foldl (fun b s => (b.push? s).getD b) b).samples = b.samples ++ samples := by
  induction samples generalizing b with
  | nil => simp
  | cons s rest ih =>
    have room : b.length < batchCapacity := by
      simp only [List.length_cons] at fits
      omega
    have gathered := samples_getD_push? room s
    rw [List.foldl_cons, ih, gathered]
    · simp
    · simp only [length, gathered, List.length_append, List.length_cons] at fits ⊢
      simp
      omega

/-- Collecting a list is pushing its first ten samples, all of which find
room. -/
theorem ofList_eq_foldl (samples : List Sample) :
    ofList samples =
      (samples.take batchCapacity).foldl (fun b s => (b.push? s).getD b) .empty := by
  have fits : empty.length + (samples.take batchCapacity).length ≤ batchCapacity := by
    show 0 + _ ≤ _
    rw [Nat.zero_add, List.length_take]
    exact Nat.min_le_left _ _
  ext1
  rw [samples_ofList, samples_foldl_push? fits, samples_empty, List.nil_append]

/-- A batch is what its own samples are collected to. -/
@[simp] theorem ofList_samples (b : Batch) : ofList b.samples = b := by
  ext1
  exact List.take_of_length_le b.bounded

end Batch

namespace Batcher

/-! ## One use -/

/-- The next sample finds a place. -/
def HasRoom (b : Batcher) : Prop := b.pending < batchCapacity

theorem hasRoom_empty : empty.HasRoom := Nat.zero_lt_succ 9

/-- A producer's dealings with a batcher. -/
inductive Use where
  | push (s : Sample)
  | flush
  deriving DecidableEq

/-- The samples handed to the batcher. -/
def Use.given : Use → List Sample
  | .push s => [s]
  | .flush => []

def apply (b : Batcher) : Use → Batcher × Option Batch
  | .push s => b.push s
  | .flush => b.flush

/-- A sample is gathered, and a batch leaves when it was the tenth. -/
theorem push_of_room {b : Batcher} (room : b.HasRoom) (s : Sample) :
    ∃ gathered : Batch, gathered.samples = b.current.samples ++ [s] ∧
      b.push s =
        if b.pending + 1 = batchCapacity then (.empty, some gathered) else (⟨gathered⟩, none) := by
  have gathered := Batch.samples_getD_push? room s
  refine ⟨_, gathered, ?_⟩
  have size : ((b.current.push? s).getD b.current).length = b.pending + 1 := by
    simp [Batch.length, gathered, pending]
  simp only [push, Batch.isFull, size, beq_iff_eq]

theorem eq_empty_of_pending {b : Batcher} (drained : b.pending = 0) : b = .empty := by
  obtain ⟨current⟩ := b
  have : current = .empty := Batch.ext (List.eq_nil_of_length_eq_zero drained)
  rw [this]
  rfl

/-- Nothing is left behind by a flush. -/
theorem flush_eq (b : Batcher) :
    b.flush = (.empty, if b.pending = 0 then none else some b.current) := by
  by_cases drained : b.pending = 0
  · rw [eq_empty_of_pending drained]
    rfl
  · have held : b.current.isEmpty = false := by
      rw [Batch.isEmpty, List.isEmpty_eq_false_iff]
      rintro blank
      exact drained (by simp [pending, Batch.length, blank])
    rw [flush, if_neg (by simp [held]), if_neg drained]

/-- What a batcher and the batches it has put out stand for. -/
def contents (b : Batcher) (out : List Batch) : List Sample :=
  out.flatMap Batch.samples ++ b.current.samples

/-- A use adds what is given to the contents, and leaves room. -/
theorem apply_contents {b : Batcher} (room : b.HasRoom) (use : Use) :
    (b.apply use).1.HasRoom ∧
      (b.apply use).1.contents (b.apply use).2.toList = b.current.samples ++ use.given := by
  cases use with
  | push s =>
    obtain ⟨gathered, samples, pushed⟩ := push_of_room room s
    simp only [apply, pushed, Use.given]
    split
    case isTrue => exact ⟨hasRoom_empty, by simp [contents, samples, empty]⟩
    case isFalse short =>
      refine ⟨?_, by simp [contents, samples]⟩
      have : gathered.length = b.pending + 1 := by simp [Batch.length, samples, pending]
      unfold HasRoom at room ⊢
      simp only [pending] at *
      omega
  | flush =>
    simp only [apply, flush_eq, Use.given]
    refine ⟨hasRoom_empty, ?_⟩
    split
    case isTrue drained => rw [eq_empty_of_pending drained]; rfl
    case isFalse => simp [contents, empty]

/-! ## Any number of uses -/

/-- One use after another; the batches that come out, in order. -/
def applyAll (b : Batcher) : List Use → Batcher × List Batch
  | [] => (b, [])
  | use :: rest =>
    let (next, out) := b.apply use
    let (last, more) := next.applyAll rest
    (last, out.toList ++ more)

theorem applyAll_contents {b : Batcher} (room : b.HasRoom) (uses : List Use) :
    (b.applyAll uses).1.HasRoom ∧
      (b.applyAll uses).1.contents (b.applyAll uses).2
        = b.current.samples ++ uses.flatMap Use.given := by
  induction uses generalizing b with
  | nil => exact ⟨room, by simp [applyAll, contents]⟩
  | cons use rest ih =>
    obtain ⟨roomy, kept⟩ := apply_contents room use
    obtain ⟨last, all⟩ := ih roomy
    refine ⟨last, ?_⟩
    simp only [applyAll, contents, List.flatMap_append, List.flatMap_cons] at kept all ⊢
    rw [List.append_assoc, all, ← List.append_assoc, kept, List.append_assoc]

theorem pushAll_eq_applyAll (b : Batcher) (samples : List Sample) :
    b.pushAll samples = b.applyAll (samples.map .push) := by
  induction samples generalizing b with
  | nil => rfl
  | cons s rest ih => simp [pushAll, applyAll, apply, ih]

/-- Until it is flushed, a batcher puts out nothing but full batches. -/
theorem full_of_mem_pushAll {b : Batcher} (room : b.HasRoom) {samples : List Sample} {out : Batch}
    (among : out ∈ (b.pushAll samples).2) : out.length = batchCapacity := by
  induction samples generalizing b with
  | nil => cases among
  | cons s rest ih =>
    obtain ⟨gathered, content, pushed⟩ := push_of_room room s
    have roomy : (b.push s).1.HasRoom := (apply_contents room (.push s)).1
    simp only [pushAll, List.mem_append] at among
    obtain now | later := among
    · rw [pushed] at now
      split at now
      case isTrue filled =>
        obtain rfl : out = gathered := by simpa using now
        simpa [Batch.length, content, pending] using filled
      case isFalse => cases now
    · exact ih roomy later

/-- The list comes out cut into tens. -/
theorem pushAll_flush (samples : List Sample) :
    (empty.pushAll samples).2 ++ (empty.pushAll samples).1.flush.2.toList
      = (samples.toChunks batchCapacity).map Batch.ofList := by
  have kept : (empty.pushAll samples).1.contents (empty.pushAll samples).2 = samples := by
    rw [pushAll_eq_applyAll, (applyAll_contents hasRoom_empty _).2]
    simp [empty, List.flatMap_map, Use.given]
  have pieces : ∀ piece ∈ (empty.pushAll samples).2.map Batch.samples, piece.length = 9 + 1 := by
    rintro piece among
    obtain ⟨out, put, rfl⟩ := List.mem_map.mp among
    exact full_of_mem_pushAll hasRoom_empty put
  generalize empty.pushAll samples = filled at kept pieces
  have last : filled.1.current.samples = [] ↔ filled.1.pending = 0 := by
    simp [pending, Batch.length]
  have ten : batchCapacity = 9 + 1 := rfl
  rw [← kept, contents, List.flatMap_def, ten, toChunks_flatten pieces,
    toChunks_of_fits filled.1.current.bounded, flush_eq]
  by_cases drained : filled.1.pending = 0 <;>
    simp [drained, last, Function.comp_def]

/-- Nothing is lost and nothing changes places, whatever a producer does with
a batcher: what it gave is in the batches, in order, and in the fewer than ten
samples still gathered. A push puts out a batch exactly when nine samples were
there, and that batch is full; a flush puts out what there is. A list that is
pushed and flushed comes out cut into tens. -/
theorem batches_carry_all_samples (uses : List Use) (samples : List Sample) :
    let b := (empty.applyAll uses).1
    let filled := (empty.pushAll samples).1
    (empty.applyAll uses).2.flatMap Batch.samples ++ b.current.samples = uses.flatMap Use.given ∧
      b.pending < 10 ∧
      (∀ s, (b.push s).2.map (fun out => (out.samples, out.length)) =
        if b.pending = 9 then some (b.current.samples ++ [s], 10) else none) ∧
      b.flush.2 = (if 0 < b.pending then some b.current else none) ∧
      (empty.pushAll samples).2 ++ filled.flush.2.toList
        = (samples.toChunks 10).map Batch.ofList := by
  obtain ⟨room, kept⟩ := applyAll_contents hasRoom_empty uses
  intro b filled
  refine ⟨kept, room, ?_, ?_, pushAll_flush samples⟩
  · intro s
    obtain ⟨gathered, content, pushed⟩ := push_of_room room s
    have size : gathered.length = b.pending + 1 := by
      simp [Batch.length, content, pending, b]
    rw [pushed]
    by_cases nine : b.pending = 9
    · simp [b, nine, content, batchCapacity, size]
    · simp [b, nine, batchCapacity]
  · rw [flush_eq]
    by_cases drained : b.pending = 0
    · simp [drained]
    · rw [if_neg drained, if_pos (by omega)]

end Batcher

end StoreForward
