import CoupledModels.Proofs.Affine.Normalizing

/-!
# Normalizing in place

All elements of a normal form can be written to one list of terms.  The sorted terms of an element go
behind those of the elements before it, each being added to the last term if that has the same
subscript and belongs to the same element.  Then the terms that are not zero move down over those
that are, and the list is cut off behind them.

This gives the normal form of each element on its own, whatever stands before it: merging never
reaches back over the start of an element, and moving terms down never overtakes the reading.
-/

namespace CoupledModels.Affine

variable {K : Type} [Scalar K]

/-- Writes a term of the element that starts at `start`; a term with the subscript of the last one is
added to it. -/
def emit (start : Nat) (out : List (Term K)) (t : Term K) : List (Term K) :=
  match out.getLast? with
  | some (j, c) =>
      if start < out.length ∧ j = t.1 then out.set (out.length - 1) (j, c + t.2) else out ++ [t]
  | none => out ++ [t]

/-- Moves a term to the next free place, unless it is zero. -/
def settle (s : List (Term K) × Nat) (i : Nat) : List (Term K) × Nat :=
  match s.1[i]? with
  | some t => if Scalar.isZero t.2 then s else (s.1.set s.2 t, s.2 + 1)
  | none => s

/-- Drops the zeros from `start` on. -/
def compact (start : Nat) (out : List (Term K)) : List (Term K) :=
  let s := (List.range' start (out.length - start)).foldl settle (out, start)
  s.1.take s.2

/-- Writes the normal form of an element behind the terms that are there. -/
def writeElement (out ts : List (Term K)) : List (Term K) :=
  let sorted := ts.mergeSort fun a b => decide (a.1 ≤ b.1)
  compact out.length (sorted.foldl (emit out.length) out)

/-- Writes an element, and the pointer that says where it ends. -/
def addElement (s : List Nat × List (Term K)) (ts : List (Term K)) : List Nat × List (Term K) :=
  let out := writeElement s.2 ts
  (s.1 ++ [out.length], out)

/-- The normal form of an expression with the given elements, written to one list of terms together
with the pointers to them. -/
def writeAll (shape : Shape) (els : List (List (Term K))) : Affine K :=
  let s := els.foldl addElement ([0], [])
  ⟨shape, s.1, s.2.map (·.1), s.2.map (·.2)⟩

/-! ## Merging -/

theorem emit_same (out run : List (Term K)) (p : Nat) (acc v : K) :
    emit out.length (out ++ run ++ [(p, acc)]) (p, v) = out ++ run ++ [(p, acc + v)] := by
  simp [emit]

theorem emit_other (out run : List (Term K)) {p q : Nat} (h : p ≠ q) (acc v : K) :
    emit out.length (out ++ run ++ [(p, acc)]) (q, v) = out ++ (run ++ [(p, acc)]) ++ [(q, v)] := by
  simp [emit, h]

/-- The first term of an element is not added to anything. -/
theorem emit_first (out : List (Term K)) (t : Term K) : emit out.length out t = out ++ [t] := by
  unfold emit
  split
  · simp
  · rfl

theorem foldl_emit (out run ts : List (Term K)) (p : Nat) (acc : K) :
    ts.foldl (emit out.length) (out ++ run ++ [(p, acc)]) =
      out ++ run ++ Entry.mergeFrom p acc ts := by
  induction ts generalizing run p acc with
  | nil => rfl
  | cons t ts ih =>
      obtain ⟨q, v⟩ := t
      rw [List.foldl_cons, Entry.mergeFrom]
      split
      · rename_i hq
        rw [hq, emit_same, ih]
      · rename_i hq
        rw [emit_other out run (Ne.symm hq), ih]
        simp

theorem foldl_emit_sorted (out ts : List (Term K)) :
    (ts.mergeSort fun a b => decide (a.1 ≤ b.1)).foldl (emit out.length) out =
      out ++ Entry.collect ts := by
  rw [Entry.collect]
  cases ts.mergeSort fun a b => decide (a.1 ≤ b.1) with
  | nil => simp [Entry.merge]
  | cons t ts =>
      obtain ⟨p, v⟩ := t
      rw [List.foldl_cons, emit_first]
      simpa [Entry.merge] using foldl_emit out [] ts p v

/-! ## Compaction -/

/-- The terms that are kept stand in front, then come terms that are free to be overwritten, then
those that have not been read.  Every term that is read moves to the front or joins the middle. -/
theorem foldl_settle (kept free rest : List (Term K)) :
    ∃ free', (List.range' (kept.length + free.length) rest.length).foldl settle
        (kept ++ free ++ rest, kept.length) =
      (kept ++ Entry.dropZeros rest ++ free', (kept ++ Entry.dropZeros rest).length) := by
  induction rest generalizing kept free with
  | nil => exact ⟨free, by simp [Entry.dropZeros]⟩
  | cons t rest ih =>
      have hread : (kept ++ free ++ t :: rest)[kept.length + free.length]? = some t := by
        simp
      rw [List.length_cons, List.range'_succ, List.foldl_cons, settle]
      simp only [hread]
      split
      · rename_i hzero
        obtain ⟨free', hfree⟩ := ih kept (free ++ [t])
        exact ⟨free', by simpa [Entry.dropZeros, hzero, Nat.add_assoc] using hfree⟩
      · rename_i hnonzero
        cases free with
        | nil =>
            -- Nothing was dropped before, so the term is written where it was read.
            obtain ⟨free', hfree⟩ := ih (kept ++ [t]) []
            exact ⟨free', by simpa [Entry.dropZeros, hnonzero] using hfree⟩
        | cons f free =>
            obtain ⟨free', hfree⟩ := ih (kept ++ [t]) (free ++ [t])
            refine ⟨free', ?_⟩
            have hplace :
                kept.length + 1 + (free.length + 1) = kept.length + (free.length + 1) + 1 := by
              omega
            simpa [Entry.dropZeros, hnonzero, hplace] using hfree

theorem compact_append (out run : List (Term K)) :
    compact out.length (out ++ run) = out ++ Entry.dropZeros run := by
  obtain ⟨free, hfree⟩ := foldl_settle out [] run
  have hlength : (out ++ run).length - out.length = run.length := by simp
  simp only [List.length_nil, Nat.add_zero, List.append_nil] at hfree
  rw [compact, hlength, hfree]
  exact List.take_left

theorem writeElement_eq (out ts : List (Term K)) :
    writeElement out ts = out ++ normalizeTerms ts := by
  rw [writeElement, foldl_emit_sorted, compact_append, normalizeTerms]

/-! ## All elements -/

theorem foldl_addElement (ps : List Nat) (out : List (Term K)) (els : List (List (Term K))) :
    els.foldl addElement (ps ++ [out.length], out) =
      (ps ++ starts out.length ((els.map normalizeTerms).map List.length),
        out ++ (els.map normalizeTerms).flatten) := by
  induction els generalizing ps out with
  | nil => simp [starts]
  | cons ts els ih =>
      rw [List.foldl_cons, addElement, writeElement_eq, ih]
      simp [starts]

/-- Writing all elements to one list gives their normal forms. -/
theorem writeAll_eq (s : Shape) (els : List (List (Term K))) :
    writeAll s els = ofElements s (els.map normalizeTerms) := by
  have hwritten := foldl_addElement [] [] els
  simp only [List.nil_append, List.length_nil] at hwritten
  rw [writeAll, hwritten, ofElements]

end CoupledModels.Affine
