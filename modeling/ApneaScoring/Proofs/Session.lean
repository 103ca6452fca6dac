import ApneaScoring.Session

namespace ApneaScoring

namespace Session

theorem run_bind {α β : Type} (session : Session) (action : Scoring α)
    (next : α → Scoring β) :
    session.run (action >>= next) =
      match session.run action with
      | (.ok a, after) => after.run (next a)
      | (.error e, after) => (.error e, after) := by
  unfold run
  rw [ExceptT.run_bind, StateT.run_bind]
  cases h : StateT.run action.run session with
  | mk result after =>
      cases result with
      | ok a => rfl
      | error e => rfl

theorem run_lift {α : Type} (session : Session) (result : Except RuleError α) :
    session.run (lift result) = (result.mapError .rule, session) := by
  cases result with
  | ok a => rfl
  | error e => rfl

theorem run_writeAll (session : Session) (lines : List Journal.Line) :
    ∃ after, session.run (writeAll lines) = (.ok (), after) :=
  ⟨_, rfl⟩

theorem run_writeShort (session : Session) (r : Rule) (announced realized : Performance) :
    ∃ after, session.run (writeShort r announced realized) =
      ((r.short? announced realized).mapError .rule, after) := by
  unfold writeShort
  rw [run_bind, run_lift]
  cases r.short? announced realized with
  | error e => exact ⟨session, rfl⟩
  | ok short =>
      cases short with
      | none => exact ⟨session, rfl⟩
      | some p => exact ⟨_, rfl⟩

/-- The default repository, as it is or as it would be made. -/
def inUse (session : Session) : Repository :=
  session.repository.getD (.ofSettings session.settings)

theorem run_defaultRepository (session : Session) :
    ∃ journal, session.run defaultRepository =
      (.ok session.inUse, { session with repository := some session.inUse, journal }) := by
  obtain ⟨environment, settings, repository, journal⟩ := session
  cases repository with
  | none => exact ⟨_, rfl⟩
  | some r => exact ⟨journal, rfl⟩

theorem run_lookup (session : Session) (r : Repository) (name : Option String) :
    ∃ journal, session.run (lookup r name) =
      (.ok (r.get (name.getD "")), { session with journal }) :=
  ⟨_, rfl⟩

theorem run_penalize (session : Session) (r : Rule) (id given : Datum)
    (realized : Performance) :
    (session.run (penalize (.definition r) id given realized)).1 =
      (r.penalize id given realized).mapError .rule := by
  unfold penalize resolve
  rw [pure_bind, run_bind, run_lift]
  cases r.penalize id given realized with
  | error e => rfl
  | ok p => rfl

theorem run_short (session : Session) (r : Rule) (announced realized : Performance) :
    (session.run (short (.definition r) announced realized)).1 =
      (r.short? announced realized).mapError .rule := by
  unfold short resolve
  rw [pure_bind]
  obtain ⟨after, hrun⟩ := session.run_writeShort r announced realized
  rw [hrun]

theorem run_reconcile (session : Session) (r : Rule) (realized : Performance)
    (ps : List Penalization) (card : Card) :
    (session.run (reconcile (.definition r) realized ps card)).1 =
      .ok (r.reconcile realized ps card) :=
  rfl

/-- What is recorded of a submission under a rule. -/
def submitted (session : Session) (r : Rule) (s : Submission) :
    Except ScoringError Recorded :=
  (session.run (submit (.definition r) s)).1

/-- Keeping the journal makes no difference to what is recorded. -/
theorem submitted_eq (session : Session) (r : Rule) (s : Submission) :
    session.submitted r s = (r.submit s).mapError .rule := by
  unfold submitted submit Rule.submit resolve
  rw [pure_bind, run_bind, run_lift]
  cases r.withPoints s.realized with
  | error e => rfl
  | ok realized =>
      obtain ⟨dropped, hdropped⟩ :=
        session.run_writeAll (List.replicate s.droppedCount (droppedLine r))
      obtain ⟨written, hwritten⟩ := dropped.run_writeShort r s.declared.announced realized
      change (session.run (writeAll _ >>= _)).1 = _
      rw [run_bind, hdropped]
      change (dropped.run (writeShort r s.declared.announced realized >>= _)).1 =
        (r.short? s.declared.announced realized >>= _ : Except _ _).mapError _
      rw [run_bind, hwritten]
      cases r.short? s.declared.announced realized with
      | error e => rfl
      | ok short => rfl

theorem submitted_eq_ok {session : Session} {r : Rule} {s : Submission} {record : Recorded} :
    session.submitted r s = .ok record ↔ r.submit s = .ok record := by
  rw [submitted_eq]
  cases r.submit s with
  | error e =>
      constructor
      · intro h
        cases h
      · intro h
        cases h
  | ok result =>
      constructor
      · intro h
        rw [Except.ok.inj h]
      · intro h
        rw [Except.ok.inj h]
        rfl

end Session

end ApneaScoring
