import Switchboard.Text.Utf8

/-!
Texts cut to a number of bytes.

What is kept of a text are the characters that lie wholly within the limit.  They are the longest
beginning of the text that fits.  The cut is searched for from the limit back to the start, byte by
byte, and no character takes more than four bytes, so that the search gives up at most three.
-/

namespace Switchboard.Text.Utf8

variable {limit n cut : Nat} {cs ds : List Char} {text kept : String}

theorem byteCount_cons (c : Char) (cs : List Char) :
    byteCount (c :: cs) = c.utf8Size + byteCount cs := rfl

theorem utf8ByteSize_ofList (cs : List Char) : (String.ofList cs).utf8ByteSize = byteCount cs := by
  induction cs with
  | nil => rfl
  | cons c cs ih =>
      rw [String.ofList_cons, String.utf8ByteSize_append, String.utf8ByteSize_singleton, ih,
        byteCount_cons]

theorem utf8ByteSize_eq (text : String) : text.utf8ByteSize = byteCount text.toList := by
  rw [← utf8ByteSize_ofList, String.ofList_toList]

theorem takeBytes_begins (n : Nat) (cs : List Char) : takeBytes n cs <+: cs := by
  induction cs generalizing n with
  | nil => exact List.prefix_rfl
  | cons c cs ih =>
      rw [takeBytes]
      split
      · exact List.cons_prefix_cons.mpr ⟨rfl, ih _⟩
      · exact List.nil_prefix

theorem byteCount_takeBytes_le (n : Nat) (cs : List Char) : byteCount (takeBytes n cs) ≤ n := by
  induction cs generalizing n with
  | nil => exact Nat.zero_le n
  | cons c cs ih =>
      rw [takeBytes]
      split
      next fits =>
        have rest := ih (n - c.utf8Size)
        rw [byteCount_cons]
        omega
      next => exact Nat.zero_le n

theorem prefix_takeBytes (begins : ds <+: cs) (fits : byteCount ds ≤ n) :
    ds <+: takeBytes n cs := by
  induction cs generalizing ds n with
  | nil => exact begins
  | cons c cs ih =>
      cases ds with
      | nil => exact List.nil_prefix
      | cons d ds =>
          obtain ⟨rfl, rest⟩ := List.cons_prefix_cons.mp begins
          rw [byteCount_cons] at fits
          rw [takeBytes, if_pos (by omega)]
          exact List.cons_prefix_cons.mpr ⟨rfl, ih rest (by omega)⟩

theorem takeBytes_of_le (fits : byteCount cs ≤ n) : takeBytes n cs = cs :=
  (takeBytes_begins n cs).eq_of_length_le (prefix_takeBytes List.prefix_rfl fits).length_le

theorem takeBytes_byteCount (begins : ds <+: cs) : takeBytes (byteCount ds) cs = ds := by
  obtain ⟨rest, rfl⟩ := begins
  induction ds with
  | nil =>
      cases rest with
      | nil => rfl
      | cons c rest => exact if_neg (Nat.not_le.mpr c.utf8Size_pos)
  | cons d ds ih =>
      rw [List.cons_append, byteCount_cons, takeBytes, if_pos (Nat.le_add_right _ _),
        Nat.add_sub_cancel_left, ih]

/-- Only a part of one character is left over. -/
theorem lt_byteCount_takeBytes_add (long : n < byteCount cs) :
    n < byteCount (takeBytes n cs) + 4 := by
  induction cs generalizing n with
  | nil => exact absurd long (Nat.not_lt_zero n)
  | cons c cs ih =>
      have size := c.utf8Size_le_four
      rw [takeBytes]
      split
      next fits =>
        rw [byteCount_cons] at long
        have rest := ih (n := n - c.utf8Size) (by omega)
        rw [byteCount_cons]
        omega
      next => omega

theorem isBoundary_iff : isBoundary cs n = true ↔ ∃ ds, ds <+: cs ∧ byteCount ds = n := by
  fun_induction isBoundary cs n with
  | case1 cs => exact iff_of_true rfl ⟨[], List.nil_prefix, rfl⟩
  | case2 n =>
      refine iff_of_false Bool.false_ne_true ?_
      rintro ⟨ds, begins, size⟩
      rw [List.prefix_nil.mp begins] at size
      exact Nat.succ_ne_zero n size.symm
  | case3 c cs n ih =>
      rw [Bool.and_eq_true, decide_eq_true_iff, ih]
      constructor
      · rintro ⟨fits, ds, begins, size⟩
        refine ⟨c :: ds, List.cons_prefix_cons.mpr ⟨rfl, begins⟩, ?_⟩
        rw [byteCount_cons]
        omega
      · rintro ⟨ds, begins, size⟩
        cases ds with
        | nil => exact absurd size (Nat.succ_ne_zero n).symm
        | cons d ds =>
            obtain ⟨rfl, rest⟩ := List.cons_prefix_cons.mp begins
            rw [byteCount_cons] at size
            exact ⟨by omega, ds, rest, by omega⟩

/-- The boundaries of a text are the places at which it may be cut. -/
theorem isBoundary_iff_isValid :
    isBoundary text.toList n = true ↔ String.Pos.Raw.IsValid text ⟨n⟩ := by
  rw [isBoundary_iff, String.Pos.Raw.isValid_iff_exists_take_toList]
  constructor
  · rintro ⟨ds, begins, size⟩
    refine ⟨ds.length, ?_⟩
    rw [← List.prefix_iff_eq_take.mp begins, utf8ByteSize_ofList, size]
  · rintro ⟨count, size⟩
    exact ⟨text.toList.take count, List.take_prefix _ _, by rw [← utf8ByteSize_ofList, ← size]⟩

theorem boundaryBefore_eq (cs : List Char) (n : Nat) :
    boundaryBefore cs n = byteCount (takeBytes n cs) := by
  induction n with
  | zero => exact (Nat.le_zero.mp (byteCount_takeBytes_le 0 cs)).symm
  | succ n ih =>
      have small := byteCount_takeBytes_le (n + 1) cs
      rw [boundaryBefore]
      split
      next boundary =>
        obtain ⟨ds, begins, size⟩ := isBoundary_iff.mp boundary
        rw [← size, takeBytes_byteCount begins]
      next inside =>
        -- nothing that ends at `n + 1` begins the text, so that the same characters fit into `n`
        have missed : byteCount (takeBytes (n + 1) cs) ≠ n + 1 := fun size =>
          inside (isBoundary_iff.mpr ⟨_, takeBytes_begins _ _, size⟩)
        have fewer : takeBytes (n + 1) cs <+: takeBytes n cs :=
          prefix_takeBytes (takeBytes_begins _ _) (by omega)
        have more : takeBytes n cs <+: takeBytes (n + 1) cs :=
          prefix_takeBytes (takeBytes_begins _ _) (Nat.le_succ_of_le (byteCount_takeBytes_le n cs))
        rw [ih, fewer.eq_of_length_le more.length_le]

theorem preview_eq_takeBytes (limit : Nat) (cs : List Char) :
    preview limit cs = takeBytes limit cs := by
  rw [preview]
  split
  next fits => exact (takeBytes_of_le fits).symm
  next => rw [boundaryBefore_eq, takeBytes_byteCount (takeBytes_begins limit cs)]

/-- The longest beginning of a text that ends with a character and has at most `limit` bytes. -/
structure IsPreview (limit : Nat) (text kept : String) : Prop where
  begins : kept.toList <+: text.toList
  fits : kept.utf8ByteSize ≤ limit
  longest : ∀ other : String, other.toList <+: text.toList → other.utf8ByteSize ≤ limit →
    other.toList <+: kept.toList

theorem isPreview_iff : IsPreview limit text kept ↔ kept.toList = takeBytes limit text.toList := by
  constructor
  · rintro ⟨begins, fits, longest⟩
    have whole := longest (String.ofList (takeBytes limit text.toList))
    rw [String.toList_ofList, utf8ByteSize_ofList] at whole
    rw [utf8ByteSize_eq] at fits
    exact (prefix_takeBytes begins fits).eq_of_length_le
      (whole (takeBytes_begins _ _) (byteCount_takeBytes_le _ _)).length_le
  · intro same
    refine ⟨same ▸ takeBytes_begins _ _, ?_, fun other begins fits => ?_⟩
    · rw [utf8ByteSize_eq, same]
      exact byteCount_takeBytes_le _ _
    · rw [same]
      exact prefix_takeBytes begins (utf8ByteSize_eq other ▸ fits)

theorem exists_isPreview (limit : Nat) (text : String) : ∃ kept, IsPreview limit text kept :=
  ⟨String.ofList (takeBytes limit text.toList), isPreview_iff.mpr String.toList_ofList⟩

namespace IsPreview

theorem eq_of_le (longest : IsPreview limit text kept) (short : text.utf8ByteSize ≤ limit) :
    kept = text := by
  rw [isPreview_iff, takeBytes_of_le (utf8ByteSize_eq text ▸ short)] at longest
  exact String.toList_injective longest

theorem lt_add_four (longest : IsPreview limit text kept) (long : limit < text.utf8ByteSize) :
    limit < kept.utf8ByteSize + 4 := by
  rw [isPreview_iff] at longest
  rw [utf8ByteSize_eq] at long
  rw [utf8ByteSize_eq, longest]
  exact lt_byteCount_takeBytes_add long

end IsPreview

/-- From a place in a text back to the nearest at which it may be cut.  At the start there is no byte
to go back over: a search that could not end there would not end at all. -/
inductive GoesBack (text : String) : Nat → Nat → Prop where
  | stay {n : Nat} (boundary : String.Pos.Raw.IsValid text ⟨n⟩) : GoesBack text n n
  | back {n cut : Nat} (inside : ¬ String.Pos.Raw.IsValid text ⟨n + 1⟩) (rest : GoesBack text n cut) :
      GoesBack text (n + 1) cut

theorem GoesBack.eq_boundaryBefore (found : GoesBack text n cut) :
    cut = boundaryBefore text.toList n := by
  induction found with
  | @stay n boundary =>
      cases n with
      | zero => rfl
      | succ n => rw [boundaryBefore, if_pos (isBoundary_iff_isValid.mpr boundary)]
  | back inside _ ih =>
      rw [boundaryBefore, if_neg fun boundary => inside (isBoundary_iff_isValid.mp boundary), ih]

theorem goesBack_boundaryBefore (text : String) (n : Nat) :
    GoesBack text n (boundaryBefore text.toList n) := by
  induction n with
  | zero => exact .stay String.Pos.Raw.isValid_zero
  | succ n ih =>
      rw [boundaryBefore]
      split
      next boundary => exact .stay (isBoundary_iff_isValid.mp boundary)
      next inside => exact .back (fun valid => inside (isBoundary_iff_isValid.mpr valid)) ih

/-- The search for the cut always ends, and nowhere but behind the preview. -/
theorem IsPreview.goesBack_iff (longest : IsPreview limit text kept) :
    GoesBack text limit cut ↔ cut = kept.utf8ByteSize := by
  rw [isPreview_iff] at longest
  rw [utf8ByteSize_eq, longest, ← boundaryBefore_eq]
  exact ⟨GoesBack.eq_boundaryBefore, fun same => same ▸ goesBack_boundaryBefore text limit⟩

end Switchboard.Text.Utf8
