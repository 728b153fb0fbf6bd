/-
  The queue of jobs.

  Jobs are taken in the order they were put in (`toList_push`, `pop?`).  The
  limit is advice: who puts jobs in asks `hasRoom` first.  A closed queue takes
  no more jobs and still gives out those it has.
-/

namespace SongLibrary.Reconcile

/-- A queue of jobs. -/
structure Queue (Job : Type) where
  /-- The jobs put in last, newest first. -/
  back : List Job
  /-- The jobs put in before those, oldest first. -/
  front : List Job
  /-- The number of jobs in the queue. -/
  size : Nat
  limit : Nat
  /-- The greatest number of jobs there were. -/
  highWater : Nat
  closed : Bool
  size_eq : size = front.length + back.length

namespace Queue

variable {Job : Type}

/-- The empty queue with a limit of one job at least. -/
def empty (limit : Nat) : Queue Job :=
  ⟨[], [], 0, max limit 1, 0, false, rfl⟩

/-- The jobs in the order they are taken. -/
def toList (q : Queue Job) : List Job :=
  q.front ++ q.back.reverse

/-- Put a job in; a closed queue refuses it. -/
def push (q : Queue Job) (job : Job) : Option (Queue Job) :=
  if q.closed then none
  else some { q with
    back := job :: q.back
    size := q.size + 1
    highWater := max q.highWater (q.size + 1)
    size_eq := by simp [q.size_eq, Nat.add_assoc] }

/-- Take the oldest job. -/
def pop? (q : Queue Job) : Option (Job × Queue Job) :=
  match q with
  | ⟨back, job :: front, size, limit, highWater, closed, h⟩ =>
    some (job, ⟨back, front, size - 1, limit, highWater, closed, by simp at h; omega⟩)
  | ⟨back, [], size, limit, highWater, closed, h⟩ =>
    match hb : back.reverse with
    | [] => none
    | job :: front =>
      some (job, ⟨[], front, size - 1, limit, highWater, closed, by
        have := congrArg List.length hb; simp at this h ⊢; omega⟩)

/-- Whether the queue is open and below its limit. -/
def hasRoom (q : Queue Job) : Bool :=
  !q.closed && q.size < q.limit

/-- The queue that takes no more jobs. -/
def close (q : Queue Job) : Queue Job :=
  { q with closed := true }

/-- Whether there is no job. -/
def isEmpty (q : Queue Job) : Bool :=
  q.size == 0

/-- **A job put in is taken last.** -/
theorem toList_push {q r : Queue Job} {job : Job} (h : q.push job = some r) :
    r.toList = q.toList ++ [job] := by
  unfold push at h
  split at h
  · simp at h
  · simp only [Option.some.injEq] at h
    subst h
    simp [toList]

/-- **The job taken is the first.** -/
theorem toList_of_pop? {q r : Queue Job} {job : Job} (h : q.pop? = some (job, r)) :
    q.toList = job :: r.toList := by
  unfold pop? at h
  split at h
  · simp only [Option.some.injEq, Prod.mk.injEq] at h
    obtain ⟨rfl, rfl⟩ := h
    simp [toList]
  · split at h
    · simp at h
    · simp only [Option.some.injEq, Prod.mk.injEq] at h
      obtain ⟨rfl, rfl⟩ := h
      simp_all [toList]

/-- The size is the number of jobs. -/
theorem size_eq_length (q : Queue Job) : q.size = q.toList.length := by
  simp [toList, q.size_eq]

theorem size_of_push {q r : Queue Job} {job : Job} (h : q.push job = some r) :
    r.size = q.size + 1 := by
  simp [size_eq_length, toList_push h]

theorem size_of_pop? {q r : Queue Job} {job : Job} (h : q.pop? = some (job, r)) :
    q.size = r.size + 1 := by
  simp [size_eq_length, toList_of_pop? h]

end Queue

end SongLibrary.Reconcile
