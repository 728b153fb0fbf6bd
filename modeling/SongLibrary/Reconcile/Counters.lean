/-
  What a run counts.

  `Counters` has a number for each `Counter`, a word of 64 bits;
  `Counters.settled` is the number of candidates whose outcome is known, and
  `Counters.summary` the lines that report the counters, in the order of
  `Counter.all`.
-/

namespace SongLibrary.Reconcile

/-- What is counted in a run. -/
inductive Counter where
  | found
  | skipped
  | skipNonAudio
  | skipOriginalBackup
  | skipDeleted
  | skipLegacyDirectory
  | alreadyInTable
  | missing
  | badFileName
  | noTags
  | queued
  | processed
  | new
  | updated
  | renamed
  | renameFailed
  | writtenTags
  | bad
  | queueHighWater
  deriving DecidableEq, Repr

namespace Counter

/-- Every counter, in the order they are reported. -/
def all : List Counter :=
  [found, skipped, skipNonAudio, skipOriginalBackup, skipDeleted, skipLegacyDirectory,
    alreadyInTable, missing, badFileName, noTags, queued, processed, new, updated, renamed,
    renameFailed, writtenTags, bad, queueHighWater]

theorem mem_all (counter : Counter) : counter ∈ all := by
  cases counter <;> decide

/-- The name of a counter. -/
def name : Counter → String
  | found => "found"
  | skipped => "skipped"
  | skipNonAudio => "skip_non_audio"
  | skipOriginalBackup => "skip_orig_backup"
  | skipDeleted => "skip_deleted"
  | skipLegacyDirectory => "skip_legacy_dir"
  | alreadyInTable => "already_in_db"
  | missing => "missing"
  | badFileName => "bad_filename"
  | noTags => "no_tags"
  | queued => "queued"
  | processed => "processed"
  | new => "new"
  | updated => "updated"
  | renamed => "renamed"
  | renameFailed => "rename_failed"
  | writtenTags => "written_tags"
  | bad => "bad"
  | queueHighWater => "queue_high_water"

/-- The counter with a given name. -/
def ofName? (text : String) : Option Counter :=
  all.find? (·.name == text)

end Counter

/-- The place of a counter among all of them. -/
def Counter.index : Counter → Fin 19
  | .found => 0
  | .skipped => 1
  | .skipNonAudio => 2
  | .skipOriginalBackup => 3
  | .skipDeleted => 4
  | .skipLegacyDirectory => 5
  | .alreadyInTable => 6
  | .missing => 7
  | .badFileName => 8
  | .noTags => 9
  | .queued => 10
  | .processed => 11
  | .new => 12
  | .updated => 13
  | .renamed => 14
  | .renameFailed => 15
  | .writtenTags => 16
  | .bad => 17
  | .queueHighWater => 18

theorem Counter.index_injective {a b : Counter} (h : a.index = b.index) : a = b := by
  revert h; cases a <;> cases b <;> decide

/-- A number for each counter. -/
structure Counters where
  numbers : Vector UInt64 19
  deriving DecidableEq

namespace Counters

/-- The number of a counter. -/
def get (c : Counters) (counter : Counter) : UInt64 :=
  c.numbers[counter.index.val]

/-- Nothing is counted yet. -/
def zero : Counters := ⟨.replicate 19 0⟩

/-- The counters with a number replaced. -/
def set (c : Counters) (counter : Counter) (n : UInt64) : Counters :=
  ⟨c.numbers.set counter.index n⟩

@[simp] theorem get_zero (counter : Counter) : zero.get counter = 0 := by
  simp [zero, get]

@[simp] theorem get_set (c : Counters) (counter k : Counter) (n : UInt64) :
    (c.set counter n).get k = if k = counter then n else c.get k := by
  simp only [get, set, Vector.getElem_set]
  by_cases h : k = counter
  · simp [h]
  · have : counter.index.val ≠ k.index.val := fun e => h (Counter.index_injective (Fin.ext e)).symm
    simp [h, this]

/-- Count one more. -/
def increment (c : Counters) (counter : Counter) : Counters :=
  c.set counter (c.get counter + 1)

/-- Count a skipped candidate, under its reason and among all skipped ones. -/
def skip (c : Counters) (reason : Counter) : Counters :=
  (c.increment reason).increment .skipped

/-- Raise a number to at least `n`. -/
def raise (c : Counters) (counter : Counter) (n : UInt64) : Counters :=
  c.set counter (max (c.get counter) n)

/-- The number of candidates whose outcome is known. -/
def settled (c : Counters) : UInt64 :=
  c.get .processed + c.get .skipped

/-- The line that reports a counter. -/
def line (c : Counters) (counter : Counter) : String :=
  counter.name ++ ": " ++ toString (c.get counter)

/-- The lines that report the counters. -/
def summary (c : Counters) : List String :=
  Counter.all.map c.line

/-- The counters that are not zero, with their numbers. -/
def nonZero (c : Counters) : List (Counter × UInt64) :=
  (Counter.all.map fun counter => (counter, c.get counter)).filter (·.2 != 0)

end Counters

end SongLibrary.Reconcile
