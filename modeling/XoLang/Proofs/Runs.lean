import Mathlib.Data.List.TakeWhile

/-!
# Longest runs

Readers take the longest run of elements with some property off the front of a list. Such a run is
the only way to split the list into elements with the property and a rest that does not go on.
-/

namespace XoLang

variable {α : Type}

/-- A list that does not start with an element for which `p` holds. -/
def StopsAt (p : α → Bool) (rest : List α) : Prop := ∀ a more, rest = a :: more → p a = false

theorem stopsAt_nil (p : α → Bool) : StopsAt p [] := by
  intro a more h
  cases h

theorem stopsAt_cons {p : α → Bool} {a : α} (h : p a = false) (more : List α) :
    StopsAt p (a :: more) := by
  rintro b rest ⟨rfl, rfl⟩
  exact h

/-- What comes first decides whether a list stops; more behind it changes nothing. -/
theorem StopsAt.append {p : α → Bool} {rest more : List α} (h : StopsAt p rest)
    (stop : StopsAt p more) : StopsAt p (rest ++ more) := by
  cases rest with
  | nil => exact stop
  | cons a rest => exact stopsAt_cons (h a rest rfl) (rest ++ more)

theorem StopsAt.cons_append {p : α → Bool} {a : α} {rest : List α} (h : StopsAt p (a :: rest))
    (more : List α) : StopsAt p (a :: rest ++ more) :=
  stopsAt_cons (h a rest rfl) (rest ++ more)

theorem StopsAt.of_append {p : α → Bool} {rest more : List α} (h : StopsAt p (rest ++ more)) :
    StopsAt p rest := by
  cases rest with
  | nil => exact stopsAt_nil p
  | cons a rest => exact stopsAt_cons (h a (rest ++ more) rfl) rest

theorem stopsAt_dropWhile (p : α → Bool) (l : List α) : StopsAt p (l.dropWhile p) := by
  intro a more h
  have first := List.head?_dropWhile_not p l
  rw [h] at first
  exact first

/-- The longest run is the only run before which a stop comes. -/
theorem takeWhile_append_of_stopsAt {p : α → Bool} {run rest : List α} (all : ∀ a ∈ run, p a = true)
    (stop : StopsAt p rest) : (run ++ rest).takeWhile p = run := by
  have none : rest.takeWhile p = [] := by
    cases rest with
    | nil => rfl
    | cons a more => exact List.takeWhile_cons_of_neg (by simp [stop a more rfl])
  rw [List.takeWhile_append_of_pos all, none, List.append_nil]

/-- A list falls into a run and a rest that stops in one way only. -/
theorem run_unique {p : α → Bool} {run run' rest rest' : List α} (all : ∀ a ∈ run, p a = true)
    (all' : ∀ a ∈ run', p a = true) (stop : StopsAt p rest) (stop' : StopsAt p rest')
    (same : run ++ rest = run' ++ rest') : run = run' ∧ rest = rest' := by
  have runs : run = run' := by
    rw [← takeWhile_append_of_stopsAt all stop, same, takeWhile_append_of_stopsAt all' stop']
  refine ⟨runs, ?_⟩
  rw [runs] at same
  exact List.append_cancel_left same

/-- No run goes on behind an element for which `p` fails. -/
theorem takeWhile_append_cons_of_neg {p : α → Bool} {a : α} (h : p a = false) (l more : List α) :
    (l ++ a :: more).takeWhile p = l.takeWhile p := by
  induction l with
  | nil => simp [h]
  | cons b l ih => rw [List.cons_append, List.takeWhile_cons, List.takeWhile_cons, ih]

/-- Every list is its longest run and a rest that stops. -/
theorem exists_takeWhile_append (p : α → Bool) (l : List α) :
    ∃ rest, l = l.takeWhile p ++ rest ∧ (∀ a ∈ l.takeWhile p, p a = true) ∧ StopsAt p rest :=
  ⟨l.dropWhile p, List.takeWhile_append_dropWhile.symm, fun _ h => List.mem_takeWhile_imp h,
    stopsAt_dropWhile p l⟩

end XoLang
