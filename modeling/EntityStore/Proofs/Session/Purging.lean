import EntityStore.Proofs.Session.LastFlush
import EntityStore.Proofs.Session.Removal
import EntityStore.Proofs.Session.Retained
import EntityStore.Proofs.World.Purging

/-!
# What a tick removes

A tick that gets past its last processor removes the entities that are due then, and only then are
listeners called.  `removes_exactly_due` says what has happened by that time, to the removed, to
everybody else, and to the news that the groups are about to tell.  In what order the kinds of the
manager were registered makes no difference, nor what the filters of its groups are.
-/

namespace EntityStore.Session

variable [Host] {e : Event} {events : List Event} {m : ManagerId}

/-- What a tick removes.  Of code outside nothing is asked but that the kinds that it registers were
made.

When the last processor is done, `u` is the world, in which managers have only been got ready since
the event began, and those are due who are due there.  The removals lead from `u` to the world in
which the flush begins, where everybody who was due has been removed and nobody else.  Of a removed
entity a group then has the news that it has left if it was a member at the last flush, or was taken
up by the group if there has been none, and in no case the news that it has joined. -/
theorem removes_exactly_due (h : Runs start events e.before)
    (hrule : ∀ f ∈ events, f.before.Follows KindsMade f.action)
    (hact : e.before.act e.action = some (e.after, e.progress)) (hends : e.EndsTick m) :
    ∃ u, World.Readied e.before.world u ∧
      (e.after.world, e.progress) = (u.removeAllDue m).flush m
        (List.range ((u.removeAllDue m).manager m).groups.length) ∧
      World.Clears m u (u.removeAllDue m) ∧
      ∀ g, g.manager = m → ∀ x ∈ (u.manager m).pending, u.isAlive m x = true →
        (x ∈ ((u.removeAllDue m).group g).removed ↔ Counted g x events ∨
          (e.before.world.manager m).groups.length ≤ g.number ∧ x ∈ (u.group g).members) ∧
        x ∉ ((u.removeAllDue m).group g).added := by
  cases turn_of_act hact m with
  | stays hsteady hnot hsilent => exact absurd hends hnot
  | flushes frame g below htop hframe hg hfinish hlasting hnot => exact absurd hends hnot
  | ends u hready hend hnow =>
      have hwired : u.Wired := hready.wired (wired_of_runs (fun _ _ _ hmade => hmade) h hrule)
      have hclears := World.clears_removeAllDue hwired m
      refine ⟨u, hready, hend, hclears, ?_⟩
      rintro g rfl x hx halive
      -- what the group counts from before the tick ends, in the words of the history
      obtain ⟨base, hsince, hcounted⟩ := since_counted h g
      obtain ⟨next, hnext, hmem⟩ := hready.since hsince
      obtain ⟨hleft, hjoined⟩ := hclears.news g rfl next hnext x hx halive
      refine ⟨?_, hjoined⟩
      rw [hleft, hmem, hcounted]

end EntityStore.Session

namespace EntityStore.Session

attribute [local instance] Host.plain

/-- A kind is registered that a group forbids, and after it one that the group requires.  There are
an entity with both, one with the second kind only, and another such one; the group is flushed.  The
removal of the first two is asked for, and of an id that nobody has. -/
def crossing : List Action :=
  [.request (.makeKind "B" .default), .request (.makeKind "A" .default),
    .request (.makeManager .default), .request (.registerKind ⟨0⟩ ⟨0⟩),
    .request (.registerKind ⟨0⟩ ⟨1⟩), .request (.openGroup ⟨0⟩ [⟨1⟩] [⟨0⟩]),
    .request (.create ⟨0⟩ [⟨0⟩, ⟨1⟩]), .request (.create ⟨0⟩ [⟨1⟩]),
    .request (.create ⟨0⟩ [⟨1⟩]), .request (.update ⟨0⟩ Time.start),
    .request (.scheduleRemoval ⟨0⟩ 1), .request (.scheduleRemoval ⟨0⟩ 2),
    .request (.scheduleRemoval ⟨0⟩ 9)]

/-- On its way out the first entity passes the filter, since it loses the forbidden kind first.  The
group has no news of it, and tells of the second one that it has left. -/
theorem crossing_leaves_no_news :
    let run := start.follow crossing
    let m : ManagerId := ⟨0⟩
    let g : GroupRef := ⟨m, 0⟩
    let r : Request := .update m Time.start
    let e : Event := ⟨run.2, .request r, (run.2.world.serve run.2.engaged run.2.told r).2,
      run.2.after r⟩
    ∃ v : World,
      (e.after.world, e.progress) = v.flush m (List.range (v.manager m).groups.length) ∧
      (v.manager m).pending = ∅ ∧ v.isAlive m 1 = false ∧ v.isAlive m 2 = false ∧
      v.isAlive m 3 = true ∧ v.holds ⟨1⟩ 3 = true ∧ 3 ∈ (v.group g).members ∧
      1 ∉ (v.group g).removed ∧ 1 ∉ (v.group g).added ∧ 2 ∈ (v.group g).removed := by
  intro run m g r e
  have hruns : Runs start run.1 run.2 := runs_follow start crossing
  have hrule : ∀ f ∈ run.1, f.before.Follows KindsMade f.action := by decide +kernel
  have hact : run.2.act (.request r) = some (e.after, e.progress) := run.2.act_eq_after rfl
  have hdue : 1 ∈ (run.2.world.manager m).pending ∧ 2 ∈ (run.2.world.manager m).pending ∧
      3 ∉ (run.2.world.manager m).pending := by
    decide +kernel
  have hlive : run.2.world.isAlive m 1 = true ∧ run.2.world.isAlive m 2 = true ∧
      run.2.world.isAlive m 3 = true ∧ run.2.world.holds ⟨1⟩ 3 = true := by
    decide +kernel
  have hgroup : 1 ∉ (run.2.world.group g).members ∧ 1 ∉ (run.2.world.group g).removed ∧
      2 ∈ (run.2.world.group g).members ∧ 2 ∉ (run.2.world.group g).added ∧
      3 ∈ (run.2.world.group g).members := by
    decide +kernel
  have hthere : g.number < (run.2.world.manager m).groups.length := by decide +kernel
  have hends : e.EndsTick m := by
    have hdead : e.after.world.isAlive m 1 = false := by decide +kernel
    exact (((turn_of_act (e := e) hact m).dead_iff hlive.1).1 hdead).1
  obtain ⟨u, hready, hflush, hclears, hnews⟩ := removes_exactly_due (e := e) hruns hrule hact hends
  -- everything that the flush sets out from can be told from the world before the event
  have hsame : u.group g = run.2.world.group g := hready.group_of_lt hthere
  rw [← hready.pending_eq] at hdue
  rw [← hready.isAlive_eq, ← hready.isAlive_eq, ← hready.isAlive_eq, ← hready.holds_eq] at hlive
  obtain ⟨hfirst, hsecond, hthird⟩ := hdue
  obtain ⟨halive, halive', halive'', hheld⟩ := hlive
  have hspared := hclears.spared 3 (Or.inl hthird)
  obtain ⟨hleft, hjoined⟩ := hnews g rfl 1 hfirst halive
  obtain ⟨hleft', -⟩ := hnews g rfl 2 hsecond halive'
  -- the first one was not a member at the last flush, and the second one was
  obtain ⟨base, hsince, hcounted⟩ := since_counted hruns g
  have hnever : ¬ Counted g 1 run.1 := by
    rw [← hcounted]
    exact fun hbase => hgroup.2.1 ((hsince.net.removed 1).2 ⟨hbase, hgroup.1⟩)
  have hcounts : Counted g 2 run.1 := by
    rw [← hcounted]
    refine Classical.byContradiction fun hbase => hgroup.2.2.2.1 ?_
    exact (hsince.net.added 2).2 ⟨hgroup.2.2.1, hbase⟩
  refine ⟨_, hflush, hclears.settled, (hclears.removed 1 hfirst halive).1,
    (hclears.removed 2 hsecond halive').1, ?_, ?_, ?_, ?_, hjoined, ?_⟩
  · rw [hspared.alive, halive'']
  · rw [hspared.holds, hheld]
  · rw [hspared.members, hsame]
    exact hgroup.2.2.2.2
  · rw [hleft]
    rintro (hcounted | ⟨hnone, -⟩)
    · exact hnever hcounted
    · exact Nat.not_lt_of_le hnone hthere
  · rw [hleft']
    exact Or.inl hcounts

end EntityStore.Session
