/-!
# Runs of characters

A scanner takes the longest run of characters of a kind.  It takes exactly the characters of a token
if these are of the kind and what follows does not go on with one.
-/

namespace CoupledModels

/-- The text does not go on with a character of a kind. -/
def Stops (p : Char → Bool) (cs : List Char) : Prop :=
  ∀ c rest, cs = c :: rest → p c = false

theorem stops_cons {p : Char → Bool} {c : Char} {cs : List Char} (h : p c = false) :
    Stops p (c :: cs) := by
  intro d rest hd
  cases hd
  exact h

theorem Stops.head {p : Char → Bool} {c : Char} {cs : List Char} (h : Stops p (c :: cs)) :
    p c = false :=
  h c cs rfl

theorem Stops.imp {p q : Char → Bool} {cs : List Char} (h : Stops p cs)
    (himp : ∀ c, p c = false → q c = false) : Stops q cs :=
  fun c rest hcs => himp c (h c rest hcs)

theorem takeWhile_append_stops {p : Char → Bool} {run rest : List Char}
    (hrun : ∀ c ∈ run, p c = true) (hrest : Stops p rest) : (run ++ rest).takeWhile p = run := by
  rw [List.takeWhile_append_of_pos hrun]
  cases rest with
  | nil => simp
  | cons c rest => simp [hrest.head]

theorem dropWhile_append_stops {p : Char → Bool} {run rest : List Char}
    (hrun : ∀ c ∈ run, p c = true) (hrest : Stops p rest) : (run ++ rest).dropWhile p = rest := by
  rw [List.dropWhile_append_of_pos hrun]
  cases rest with
  | nil => rfl
  | cons c rest => simp [hrest.head]

theorem mem_takeWhile {p : Char → Bool} {cs : List Char} {c : Char} (h : c ∈ cs.takeWhile p) :
    p c = true :=
  List.all_eq_true.1 List.all_takeWhile c h

end CoupledModels
