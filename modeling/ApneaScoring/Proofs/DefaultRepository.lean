import ApneaScoring.Proofs.Repository
import ApneaScoring.Proofs.Session
import Mathlib.Data.List.DropRight

/-! What the default repository holds can be told from the requests alone: the federation rules
that were enabled when it was first used since the last reset, and what was registered since. -/

namespace ApneaScoring

/-- What a host asks of the default repository and of the settings behind it. -/
inductive Request
  | lookup (name : Option String)
  | list
  | check (name : String)
  | register (rule : Rule)
  | reset
  | reload (environment : Environment)
deriving DecidableEq

inductive Answer
  | rule (rule : Rule)
  | names (names : List String)
  | found (found : Bool)
  | settings (settings : Settings)
  | done
deriving DecidableEq

namespace Request

def isReset : Request → Bool
  | reset => true
  | _ => false

def isUse : Request → Bool
  | reset | reload _ => false
  | _ => true

def registered : Request → List Rule
  | register rule => [rule]
  | _ => []

def environment? : Request → Option Environment
  | reload environment => some environment
  | _ => none

variable {q : Request}

theorem isReset_of_isUse (h : q.isUse = true) : q.isReset = false := by
  cases q <;> first | rfl | cases h

theorem registered_of_not_isUse (h : q.isUse = false) : q.registered = [] := by
  cases q <;> first | rfl | cases h

end Request

abbrev History := List Request

namespace History

def sinceReset (history : History) : List Request :=
  history.rtakeWhile (!·.isReset)

def isUsed (history : History) : Bool :=
  history.sinceReset.any (·.isUse)

/-- The history up to the first use since the last reset, all of it if there is none. -/
def beforeUse (history : History) : History :=
  history.rdropWhile (!·.isReset) ++ history.sinceReset.takeWhile (!·.isUse)

def registered (history : History) : List Rule :=
  history.sinceReset.flatMap (·.registered)

/-- The settings in force after a history that began in an environment. -/
def settings (start : Environment) (history : History) : Settings :=
  .ofEnvironment ((history.filterMap (·.environment?)).getLast?.getD start)

/-- The settings that the default repository was made by. -/
def opening (start : Environment) (history : History) : Settings :=
  settings start history.beforeUse

/-- What stands under a name: the last rule registered under it since the last reset, or else the
federation rule of that name if it was enabled. -/
def rule? (start : Environment) (history : History) (name : String) : Option Rule :=
  (history.registered.filter (·.name == name)).getLast?.or
    (Federations.all.find? fun rule =>
      (history.opening start).isEnabled rule.name && rule.name == name)

def names (start : Environment) (history : History) : List String :=
  (Federations.names.filter (history.opening start).isEnabled ++
    history.registered.map (·.name)).eraseDups

def contents (start : Environment) (history : History) : Repository :=
  (Repository.ofSettings (history.opening start)).insertAll history.registered

variable {start : Environment} {history : History} {q : Request}

theorem sinceReset_concat (history : History) (q : Request) :
    sinceReset (history ++ [q]) = if q.isReset then [] else history.sinceReset ++ [q] := by
  rw [sinceReset, List.rtakeWhile_concat]
  cases q.isReset <;> rfl

theorem isUsed_concat (history : History) (q : Request) :
    isUsed (history ++ [q]) = (!q.isReset && (history.isUsed || q.isUse)) := by
  rw [isUsed, sinceReset_concat]
  cases q.isReset <;> simp [isUsed]

theorem takeWhile_eq_self (h : history.isUsed = false) :
    history.sinceReset.takeWhile (!·.isUse) = history.sinceReset := by
  rw [List.takeWhile_eq_self_iff]
  simpa [isUsed] using h

theorem beforeUse_of_not_isUsed (h : history.isUsed = false) : history.beforeUse = history := by
  rw [beforeUse, takeWhile_eq_self h]
  exact List.rdropWhile_append_rtakeWhile

/-- From its first use on, the default repository is made by the same settings. -/
theorem beforeUse_concat (hreset : q.isReset = false)
    (h : history.isUsed = true ∨ q.isUse = true) :
    beforeUse (history ++ [q]) = history.beforeUse := by
  have hdrop : (history ++ [q]).rdropWhile (!·.isReset) = history.rdropWhile (!·.isReset) :=
    List.rdropWhile_concat_pos _ _ _ (by simp [hreset])
  rw [beforeUse, beforeUse, hdrop, sinceReset_concat, if_neg (by simp [hreset]),
    List.takeWhile_append]
  split
  · next hlength =>
      have hunused : history.isUsed = false := by
        have hself := (List.takeWhile_sublist _).eq_of_length hlength
        rw [List.takeWhile_eq_self_iff] at hself
        simpa [isUsed] using hself
      have hq : q.isUse = true := by simpa [hunused] using h
      simp [takeWhile_eq_self hunused, hq]
  · rfl

theorem registered_concat (hreset : q.isReset = false) :
    registered (history ++ [q]) = history.registered ++ q.registered := by
  rw [registered, registered, sinceReset_concat, if_neg (by simp [hreset])]
  simp

theorem registered_of_not_isUsed (h : history.isUsed = false) : history.registered = [] := by
  rw [registered, List.flatMap_eq_nil_iff]
  intro q hq
  apply Request.registered_of_not_isUse
  simp only [isUsed, List.any_eq_false] at h
  simpa using h q hq

theorem contents_concat (start : Environment) (hreset : q.isReset = false)
    (h : history.isUsed = true ∨ q.isUse = true) :
    contents start (history ++ [q]) = (history.contents start).insertAll q.registered := by
  rw [contents, opening, beforeUse_concat hreset h, registered_concat hreset,
    Repository.insertAll_append]
  rfl

theorem contents_of_not_isUsed (h : history.isUsed = false) :
    history.contents start = .ofSettings (history.settings start) := by
  rw [contents, opening, beforeUse_of_not_isUsed h, registered_of_not_isUsed h,
    Repository.insertAll_nil]

theorem find?_contents (start : Environment) (history : History) (name : String) :
    (history.contents start).find? name = history.rule? start name := by
  rw [contents, Repository.find?_insertAll, Repository.find?_ofSettings, rule?]

theorem names_contents (start : Environment) (history : History) :
    (history.contents start).names = history.names start := by
  rw [contents, Repository.names_insertAll, Repository.names_ofSettings, names]

end History

namespace Session

def serve : Request → Scoring Answer
  | .lookup name => do
      let rule ← resolve (.name name)
      return .rule rule
  | .list => do
      let names ← ruleNames
      return .names names
  | .check name => do
      let found ← ruleExists name
      return .found found
  | .register rule => do
      register rule
      return .done
  | .reset => do
      resetRepository
      return .done
  | .reload environment => do
      let settings ← reload environment
      return .settings settings

def answer (session : Session) (q : Request) : Except ScoringError Answer :=
  (session.run (serve q)).1

def after (session : Session) (requests : List Request) : Session :=
  requests.foldl (fun s q => (s.run (serve q)).2) session

/-- How often a default repository is made while requests are served. -/
def builds (session : Session) : List Request → Nat
  | [] => 0
  | q :: later =>
      let next := (session.run (serve q)).2
      (if session.repository.isNone && next.repository.isSome then 1 else 0) + next.builds later

variable {session : Session} {q : Request}

theorem answer_lookup (session : Session) (name : Option String) :
    session.answer (.lookup name) = .ok (.rule (session.inUse.get (name.getD ""))) := by
  obtain ⟨environment, settings, repository, journal⟩ := session
  cases repository <;> rfl

theorem answer_list (session : Session) :
    session.answer .list = .ok (.names session.inUse.sortedNames) := by
  obtain ⟨environment, settings, repository, journal⟩ := session
  cases repository <;> rfl

theorem answer_check (session : Session) (name : String) :
    session.answer (.check name) = .ok (.found (session.inUse.contains name)) := by
  obtain ⟨environment, settings, repository, journal⟩ := session
  cases repository <;> rfl

theorem repository_serve (session : Session) (q : Request) :
    (session.run (serve q)).2.repository =
      if q.isReset then none
      else if q.isUse then some (session.inUse.insertAll q.registered)
      else session.repository := by
  obtain ⟨environment, settings, repository, journal⟩ := session
  cases q <;> cases repository <;> rfl

theorem settings_serve (session : Session) (q : Request) :
    (session.run (serve q)).2.settings =
      q.environment?.elim session.settings .ofEnvironment := by
  obtain ⟨environment, settings, repository, journal⟩ := session
  cases q <;> cases repository <;> rfl

theorem after_concat (session : Session) (history : History) (q : Request) :
    session.after (history ++ [q]) = ((session.after history).run (serve q)).2 :=
  List.foldl_append

theorem settings_after (start : Environment) (history : History) :
    ((ofEnvironment start).after history).settings = history.settings start := by
  induction history using List.reverseRecOn with
  | nil => rfl
  | append_singleton history q ih =>
      rw [after_concat, settings_serve, ih, History.settings, History.settings,
        List.filterMap_append]
      cases h : q.environment? <;> simp [h]

theorem inUse_of_repository {start : Environment} {history : History}
    (hsettings : session.settings = history.settings start)
    (hrepository : session.repository =
      if history.isUsed then some (history.contents start) else none) :
    session.inUse = history.contents start := by
  rw [inUse, hrepository, hsettings]
  cases hused : history.isUsed with
  | false => exact (History.contents_of_not_isUsed hused).symm
  | true => rfl

theorem repository_after (start : Environment) (history : History) :
    ((ofEnvironment start).after history).repository =
      if history.isUsed then some (history.contents start) else none := by
  induction history using List.reverseRecOn with
  | nil => rfl
  | append_singleton history q ih =>
      have hinUse := inUse_of_repository (settings_after start history) ih
      rw [after_concat, repository_serve, hinUse, ih, History.isUsed_concat]
      cases hreset : q.isReset with
      | true => simp
      | false =>
          cases huse : q.isUse with
          | true => simp [History.contents_concat start hreset (.inr huse)]
          | false =>
              cases hused : History.isUsed history with
              | true =>
                  have hcontents := History.contents_concat start hreset (.inl hused)
                  rw [Request.registered_of_not_isUse huse] at hcontents
                  simp [hcontents]
              | false => simp

theorem inUse_after (start : Environment) (history : History) :
    ((ofEnvironment start).after history).inUse = history.contents start :=
  inUse_of_repository (settings_after start history) (repository_after start history)

theorem after_cons (session : Session) (q : Request) (later : List Request) :
    session.after (q :: later) = ((session.run (serve q)).2).after later :=
  rfl

theorem repository_after_of_some {r : Repository} {later : List Request}
    (h : session.repository = some r) (hlater : ∀ q ∈ later, q.isReset = false) :
    (session.after later).repository = some (r.insertAll (later.flatMap (·.registered))) := by
  induction later generalizing session r with
  | nil => exact h
  | cons q later ih =>
      rw [List.forall_mem_cons] at hlater
      have hnext : (session.run (serve q)).2.repository = some (r.insertAll q.registered) := by
        rw [repository_serve, hlater.1, inUse, h]
        cases huse : q.isUse with
        | true => rfl
        | false => rw [Request.registered_of_not_isUse huse]; rfl
      rw [after_cons, ih hnext hlater.2, List.flatMap_cons, Repository.insertAll_append]

theorem builds_eq {later : List Request} (hlater : ∀ q ∈ later, q.isReset = false) :
    session.builds later =
      if session.repository.isNone && later.any (·.isUse) then 1 else 0 := by
  induction later generalizing session with
  | nil => simp [builds]
  | cons q later ih =>
      rw [List.forall_mem_cons] at hlater
      rw [builds, ih hlater.2, repository_serve, hlater.1]
      cases hrepository : session.repository <;> cases huse : q.isUse <;> simp [huse]

/-- What a session is to be after a history of requests that began in an environment. -/
structure Follows (session : Session) (start : Environment) (history : History) : Prop where
  settings : session.settings = history.settings start
  used : session.repository.isSome = history.isUsed
  made : session.repository = none → ∀ q, q.isUse = true → ∃ r : Repository,
    r.rules = Federations.all.filter (fun rule => session.settings.isEnabled rule.name) ∧
    (session.after [q]).repository = some (r.insertAll q.registered)
  builds : ∀ later, (∀ q ∈ later, q.isReset = false) →
    session.builds later = if session.repository.isNone && later.any (·.isUse) then 1 else 0
  kept : ∀ r ∈ session.repository, ∀ later, (∀ q ∈ later, q.isReset = false) →
    (session.after later).repository = some (r.insertAll (later.flatMap (·.registered)))
  names : ∀ r ∈ session.repository, r.names.Nodup ∧ r.names = history.names start
  rules : ∀ r ∈ session.repository, r.rules.map some = r.names.map (history.rule? start)
  lookup : ∀ name, session.answer (.lookup name) =
    .ok (.rule ((history.rule? start (name.getD "")).getD .unknown))
  check : ∀ name, session.answer (.check name) =
    .ok (.found (history.rule? start name).isSome)
  list : ∃ names, session.answer .list = .ok (.names names) ∧ names.Nodup ∧
    names.Pairwise (· ≤ ·) ∧ ∀ name, name ∈ names ↔ (history.rule? start name).isSome = true

/-- After any history the default repository is what the requests made of it. -/
theorem after_follows (start : Environment) (history : History) :
    ((ofEnvironment start).after history).Follows start history := by
  have hrepository := repository_after start history
  have hinUse := inUse_after start history
  have hcontents {r : Repository}
      (hr : r ∈ ((ofEnvironment start).after history).repository) :
      r = history.contents start := by
    rw [Option.mem_def, hrepository] at hr
    split at hr
    · exact (Option.some.inj hr).symm
    · cases hr
  refine ⟨settings_after start history, ?_, fun hnone q huse => ?_, fun later => builds_eq,
    fun r hr later => repository_after_of_some hr, fun r hr => ⟨r.names_nodup, ?_⟩,
    fun r hr => ?_, fun name => ?_, fun name => ?_, ?_⟩
  · rw [hrepository]
    cases history.isUsed <;> rfl
  · refine ⟨_, Repository.rules_ofSettings _, ?_⟩
    rw [after_cons, after, List.foldl_nil, repository_serve, Request.isReset_of_isUse huse, huse,
      inUse, hnone]
    rfl
  · rw [hcontents hr, History.names_contents]
  · rw [← Repository.map_find?_names]
    apply List.map_congr_left
    intro name _
    rw [hcontents hr, History.find?_contents]
  · rw [answer_lookup, hinUse, Repository.get, History.find?_contents]
  · rw [answer_check, hinUse, ← Repository.isSome_find?, History.find?_contents]
  · refine ⟨_, answer_list _, Repository.nodup_sortedNames _,
      Repository.pairwise_sortedNames _, fun name => ?_⟩
    rw [Repository.mem_sortedNames, hinUse, ← History.find?_contents, Repository.isSome_find?]
    simp [Repository.contains]

/-- One rule is enabled, another one is registered, and only then all are enabled. -/
theorem after_follows_oneEnabled :
    History.names [("FREEDIVE_ENABLED_RULES", " aida_sta ")]
      [.register Federations.Cmas.sta, .reload []] = ["AIDA_STA", "CMAS_STA"] ∧
    ((ofEnvironment [("FREEDIVE_ENABLED_RULES", " aida_sta ")]).after
      [.register Federations.Cmas.sta, .reload []]).answer (.lookup (some "AIDA_DYN")) =
        .ok (.rule .unknown) ∧
    ((ofEnvironment [("FREEDIVE_ENABLED_RULES", " aida_sta ")]).after
      [.register Federations.Cmas.sta, .reload []]).answer (.check "CMAS_STA") =
        .ok (.found true) := by
  have hfollows := after_follows [("FREEDIVE_ENABLED_RULES", " aida_sta ")]
    [.register Federations.Cmas.sta, .reload []]
  refine ⟨by decide +kernel, ?_, ?_⟩
  · have hrule : History.rule? [("FREEDIVE_ENABLED_RULES", " aida_sta ")]
        [.register Federations.Cmas.sta, .reload []] "AIDA_DYN" = none := by decide +kernel
    rw [hfollows.lookup, Option.getD_some, hrule]
    rfl
  · have hrule : (History.rule? [("FREEDIVE_ENABLED_RULES", " aida_sta ")]
        [.register Federations.Cmas.sta, .reload []] "CMAS_STA").isSome = true := by
      decide +kernel
    rw [hfollows.check, hrule]

end Session

end ApneaScoring
