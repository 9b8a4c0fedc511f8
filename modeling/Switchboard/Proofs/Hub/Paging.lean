import Switchboard.Proofs.Hub.Finality

/-!
Reading the stored events page by page.

A reader asks for the events after a cursor, and then each time for those after the last one it got.
Numbers are stored once for each execution, so that the events after the last of a page are those that
the page had no room for.  The pages are cut from one ascending list, and the list runs out.
-/

namespace Switchboard

variable {w : World} {m : Meter} {db : Database} {execution : ExecutionId} {cursor : Int}
  {size calls : Nat}

namespace EventRow

/-- Reads the events of an execution after a cursor page by page, until a page is empty or the calls
are used up. -/
def readPages (execution : ExecutionId) (size : Nat) :
    Nat → Int → Transaction StoreError (List (List EventRow))
  | 0, _ => pure []
  | calls + 1, cursor => do
    let page ← listAfter execution cursor size
    match page.getLast? with
    | none => return [page]
    | some last => return page :: (← readPages execution size calls last.wire)

/-- Behind the last row of a page comes what is left of an ascending list. -/
theorem filter_after_page {rows : List EventRow} {last : EventRow} {room : Nat}
    (ascending : rows.Pairwise (·.wire < ·.wire)) (isLast : (rows.take room).getLast? = some last) :
    rows.filter (last.wire < ·.wire) = rows.drop room := by
  obtain ⟨page, ending⟩ := List.getLast?_eq_some_iff.mp isLast
  have parts : rows = page ++ [last] ++ rows.drop room := by
    rw [← ending, List.take_append_drop]
  rw [parts, List.pairwise_append, List.pairwise_append] at ascending
  obtain ⟨⟨-, -, within⟩, -, across⟩ := ascending
  have none : (page ++ [last]).filter (last.wire < ·.wire) = [] := by
    rw [List.filter_eq_nil_iff]
    intro row member
    rcases List.mem_append.mp member with before | same
    · have below := within row before last (List.mem_singleton_self _)
      simpa using Int.le_of_lt below
    · cases List.mem_singleton.mp same
      simp
  have all : (rows.drop room).filter (last.wire < ·.wire) = rows.drop room := by
    rw [List.filter_eq_self]
    intro row member
    exact decide_eq_true (across last (by simp) row member)
  calc rows.filter (last.wire < ·.wire)
    _ = (page ++ [last] ++ rows.drop room).filter (last.wire < ·.wire) := by rw [← parts]
    _ = rows.drop room := by rw [List.filter_append, none, all, List.nil_append]

end EventRow

namespace Database

theorem sorted_ascendingAfter : (db.ascendingAfter execution cursor).Pairwise (·.wire ≤ ·.wire) := by
  have sorted : (db.ascendingAfter execution cursor).Pairwise
      fun a b => decide (a.wire ≤ b.wire) := by
    refine List.pairwise_mergeSort ?_ ?_ _
    · intro a b c
      simpa only [decide_eq_true_eq] using Int.le_trans
    · intro a b
      simpa only [Bool.or_eq_true, decide_eq_true_eq] using Int.le_total a.wire b.wire
  exact sorted.imp of_decide_eq_true

theorem DistinctEvents.ascendingAfter (distinct : db.DistinctEvents) :
    (db.ascendingAfter execution cursor).Pairwise (·.wire < ·.wire) := by
  have numbers : ((db.ascendingAfter execution cursor).map (·.wire)).Nodup := by
    have stored : (db.wires execution).Nodup := distinct.nodup_wires
    rw [(perm_ascendingAfter.map _).nodup_iff]
    refine stored.sublist (List.Sublist.map _ ?_)
    refine List.monotone_filter_right _ fun row => ?_
    simp only [Bool.and_eq_true]
    exact And.left
  have apart := List.pairwise_map.mp numbers
  exact (sorted_ascendingAfter.and apart).imp Int.lt_iff_le_and_ne.mpr

/-- A later cursor leaves a part of the list. -/
theorem DistinctEvents.ascendingAfter_of_le (distinct : db.DistinctEvents) {later : Int}
    (le : cursor ≤ later) :
    db.ascendingAfter execution later =
      (db.ascendingAfter execution cursor).filter (later < ·.wire) := by
  have part : (db.events.filter fun row => row.execution = execution && later < row.wire) =
      (db.events.filter fun row => row.execution = execution && cursor < row.wire).filter
        (later < ·.wire) := by
    rw [List.filter_filter]
    refine List.filter_congr fun row _ => ?_
    by_cases above : later < row.wire
    · simp [above, Int.lt_of_le_of_lt le above]
    · simp [above]
  have same : (db.ascendingAfter execution later).Perm
      ((db.ascendingAfter execution cursor).filter (later < ·.wire)) := by
    refine perm_ascendingAfter.trans ?_
    rw [part]
    exact (perm_ascendingAfter.filter _).symm
  refine same.eq_of_pairwise ?_ distinct.ascendingAfter (distinct.ascendingAfter.filter _)
  intro a b _ _ before after
  omega

end Database

/-- What comes after the last row of a page is what the page had no room for. -/
theorem Database.DistinctEvents.rest_of_page (distinct : db.DistinctEvents) {room : Nat}
    {last : EventRow}
    (isLast : ((db.ascendingAfter execution cursor).take room).getLast? = some last) :
    db.ascendingAfter execution last.wire = (db.ascendingAfter execution cursor).drop room := by
  have listed : last ∈ db.ascendingAfter execution cursor :=
    List.mem_of_mem_take (List.mem_of_getLast? isLast)
  have stored := List.mem_filter.mp (Database.perm_ascendingAfter.mem_iff.mp listed)
  have above : cursor < last.wire := by
    simpa using (Bool.and_eq_true_iff.mp stored.2).2
  rw [distinct.ascendingAfter_of_le (Int.le_of_lt above)]
  exact EventRow.filter_after_page distinct.ascendingAfter isLast

/-- The meter after a number of statements. -/
def Meter.afterStatements (count : Nat) (m : Meter) : Meter :=
  { m with statements := m.statements + count }

/-- The pages of a reader are cut from the ascending list, and then comes an empty one. -/
theorem Database.DistinctEvents.readPages (distinct : db.DistinctEvents) (positive : 0 < size)
    (calm : w.CalmFrom m) (enough : (db.ascendingAfter execution cursor).length < calls) :
    ∃ pages : List (List EventRow),
      EventRow.readPages execution size calls cursor w m db =
        (m.afterStatements (pages.length + 1), .ok (pages ++ [[]], db)) ∧
      pages.flatten = db.ascendingAfter execution cursor ∧
      ∀ page ∈ pages, page ≠ [] ∧ page.length ≤ size := by
  induction calls generalizing cursor m with
  | zero => contradiction
  | succ calls ih =>
      have room : 0 < min size EventRow.limitMax := Nat.lt_min.mpr ⟨positive, by decide⟩
      obtain ⟨page, isPage⟩ : ∃ page, page =
          (db.ascendingAfter execution cursor).take (min size EventRow.limitMax) := ⟨_, rfl⟩
      have listed : EventRow.listAfter execution cursor size w m db =
          (m.afterStatement, .ok (page, db)) :=
        EventRow.listAfter_eq_ok.mpr ⟨calm.passes, rfl, isPage.symm, rfl⟩
      unfold EventRow.readPages
      rw [Transaction.bind_apply, listed]
      cases isLast : page.getLast? with
      | none =>
          have empty : page = [] := List.getLast?_eq_none_iff.mp isLast
          have nothing : db.ascendingAfter execution cursor = [] := by
            rw [empty, eq_comm, List.take_eq_nil_iff] at isPage
            exact isPage.resolve_left (Nat.ne_of_gt room)
          refine ⟨[], ?_, nothing.symm, fun _ absent => absurd absent List.not_mem_nil⟩
          simp only [empty]
          rfl
      | some last =>
          have rest : db.ascendingAfter execution last.wire =
              (db.ascendingAfter execution cursor).drop (min size EventRow.limitMax) :=
            distinct.rest_of_page (isPage ▸ isLast)
          have nonempty : page ≠ [] := by
            rintro rfl
            contradiction
          have fewer : (db.ascendingAfter execution last.wire).length < calls := by
            have progress : 0 < page.length := List.length_pos_iff.mpr nonempty
            rw [isPage, List.length_take] at progress
            rw [rest, List.length_drop]
            omega
          obtain ⟨pages, read, all, sizes⟩ := ih (calm.mono m.before_afterStatement) fewer
          refine ⟨page :: pages, ?_, ?_, ?_⟩
          · simp only [isLast]
            rw [Transaction.bind_apply, read]
            simp [Meter.afterStatements, Meter.afterStatement]
            omega
          · rw [List.flatten_cons, all, rest, isPage, List.take_append_drop]
          · have short : page.length ≤ size := by
              rw [isPage, List.length_take]
              omega
            exact List.forall_mem_cons.mpr ⟨⟨nonempty, short⟩, sizes⟩

namespace Hub

/-- Paging loses and repeats nothing.  Whatever has happened to a hub, a reader that pages through the
events of an execution from any cursor, where no statement is refused, makes one call more than there
are pages, and the last of them gives an empty page.  The pages together are the stored events behind
the cursor, in ascending order, each of them once. -/
theorem paging_is_complete (w : World) (limit ring queue : Nat) (steps : List Step)
    (execution : ExecutionId) (cursor : Int) (size : Nat) (positive : 0 < size) :
    let h := (create limit ring queue).proceed w steps
    let stored := h.db.events.filter fun row => row.execution = execution && cursor < row.wire
    ∀ (m : Meter) (calls : Nat), w.CalmFrom m → stored.length < calls →
      ∃ pages : List (List EventRow),
        EventRow.readPages execution size calls cursor w m h.db =
          (m.afterStatements (pages.length + 1), .ok (pages ++ [[]], h.db)) ∧
        (∀ page ∈ pages, page ≠ [] ∧ page.length ≤ size) ∧
        pages.flatten.Perm stored ∧ pages.flatten.Pairwise (·.wire < ·.wire) := by
  intro h stored m calls calm enough
  have leads : Leads (fun _ => True) (create limit ring queue) h := leads_proceed undisturbed_create
  have distinct : h.db.DistinctEvents :=
    leads.db.keeps Database.DistinctEvents List.nodup_nil fun _ _ _ _ distinct => distinct.apply
  have listed : (h.db.ascendingAfter execution cursor).Perm stored := Database.perm_ascendingAfter
  obtain ⟨pages, read, all, sizes⟩ :=
    distinct.readPages positive calm (listed.length_eq ▸ enough)
  refine ⟨pages, read, sizes, ?_, ?_⟩
  · rw [all]
    exact listed
  · rw [all]
    exact distinct.ascendingAfter

/-- Events that arrive in two batches and out of order. -/
private def shuffled : List Step :=
  [.perform (.createSession ⟨some "session", "ws", "p", none, none, false, none, none, none, "user"⟩),
    .perform (.execute ⟨"ws", "session", "hello", "user"⟩),
    .perform (.ingest "exec_" [⟨3, "", "text_delta", none⟩, ⟨-1, "", "cancelled", none⟩]),
    .perform (.ingest "exec_" [⟨2, "", "text_delta", none⟩])]

/-- Three events take two pages of two. -/
theorem shuffled_events_come_in_order :
    let h := (create 1 8 8).proceed .plain shuffled
    ∃ pages : List (List EventRow),
      EventRow.readPages "exec_" 2 4 (-5) .plain h.meter h.db =
        (h.meter.afterStatements (pages.length + 1), .ok (pages ++ [[]], h.db)) ∧
      pages.flatten.map (·.wire) = [-1, 2, 3] := by
  have facts := paging_is_complete .plain 1 8 8 shuffled "exec_" (-5) 2 (by decide)
  have arrived : (((create 1 8 8).proceed .plain shuffled).db.events.filter fun row =>
      row.execution = "exec_" && (-5 : Int) < row.wire).map (·.wire) = [3, -1, 2] := by
    decide +kernel
  -- the run has been evaluated where that was needed; from here on it is any hub
  generalize (create 1 8 8).proceed .plain shuffled = h at *
  intro _
  have few := congrArg List.length arrived
  rw [List.length_map] at few
  obtain ⟨pages, read, -, all, ascending⟩ :=
    facts h.meter 4 World.calmFrom_plain (few ▸ by decide)
  refine ⟨pages, read, ?_⟩
  have same : (pages.flatten.map (·.wire)).Perm [-1, 2, 3] := by
    refine (all.map _).trans ?_
    rw [arrived]
    decide
  have sorted : (pages.flatten.map (·.wire)).Pairwise (· < ·) := List.pairwise_map.mpr ascending
  exact same.eq_of_pairwise (fun _ _ _ _ before after => absurd after (Int.lt_asymm before)) sorted
    (by decide)

end Hub

end Switchboard
