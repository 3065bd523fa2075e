import Restock.Proofs.Supervisor.Views
import Restock.Supervisor.Requests

/-! Requests that a supervisor refuses.

Carried out step by step, a request either comes to where `Supervisor.take?` says
(`carryOut_of_take?`), or is refused for the first of its conditions that fails, before
anything was done for it (`Refuses.carryOut`). A search for a task goes through the groups
and takes it out of each, which changes nothing where the task is not (`takeOut_absent`).
After a shutdown no group runs and none can be started (`Tended`). Together this is
`refusals_change_nothing`. -/
namespace Restock

namespace Work

section
variable {α β : Type} (k : Conduct)

theorem carryOut_bind (w : Work α) (f : α → Work β) :
    (w >>= f).carryOut k =
      match w.carryOut k with
      | (.ok a, k) => (f a).carryOut k
      | (.error e, k) => (.error e, k) := by
  show ExceptT.bindCont f (w.carryOut k).1 (w.carryOut k).2 = _
  obtain ⟨r, k⟩ := w.carryOut k
  cases r <;> rfl

theorem carryOut_map (f : α → β) (w : Work α) :
    (f <$> w).carryOut k = ((w.carryOut k).1.map f, (w.carryOut k).2) := by
  rw [map_eq_pure_bind, carryOut_bind]
  obtain ⟨r, k⟩ := w.carryOut k
  cases r <;> rfl

theorem carryOut_pure (a : α) : (pure a : Work α).carryOut k = (.ok a, k) := rfl

theorem carryOut_throw (f : SupervisorFault) : (throw f : Work α).carryOut k = (.error f, k) := rfl

theorem carryOut_look (f : Supervisor → α) : (look f).carryOut k = (.ok (f k.supervisor), k) := rfl

theorem carryOut_alter (f : Supervisor → α × Supervisor) :
    (alter f).carryOut k = (.ok (f k.supervisor).1, { k with supervisor := (f k.supervisor).2 }) :=
  rfl

theorem carryOut_act (f : Supervisor → Supervisor × List Happening) :
    (act f).carryOut k =
      (.ok (), { k with supervisor := (f k.supervisor).1, seen := k.seen ++ (f k.supervisor).2 }) :=
  rfl

theorem carryOut_build (c : Collaborator) :
    (build c).carryOut k = (.ok (), { k with built := k.built ++ [c] }) := rfl

theorem carryOut_demand (r : Except SupervisorFault α) :
    (demand r).carryOut k = (r.map fun _ => (), k) := by
  cases r <;> rfl

/-! ### Starting -/

theorem carryOut_spawnTask (g : GroupId) (monitor : Nat) (group : GroupConfig) (c : TaskConfig) :
    (spawnTask g monitor group c).carryOut k =
      (.ok ((k.supervisor.spawnTask g monitor group.retailer c).1,
          (k.supervisor.spawnTask g monitor group.retailer c).2.1),
        ⟨(k.supervisor.spawnTask g monitor group.retailer c).2.2, k.built ++ [.driver group c],
          k.seen⟩) := rfl

theorem carryOut_spawnTasks (g : GroupId) (monitor : Nat) (group : GroupConfig)
    (owned : Table TaskId Nat) (cs : List TaskConfig) :
    (spawnTasks g monitor group owned cs).carryOut k =
      (.ok (k.supervisor.spawnTasks g monitor group.retailer owned cs).1,
        ⟨(k.supervisor.spawnTasks g monitor group.retailer owned cs).2,
          k.built ++ cs.map (.driver group), k.seen⟩) := by
  induction cs generalizing k owned with
  | nil =>
    rw [List.map_nil, List.append_nil]
    rfl
  | cons c cs ih =>
    rw [spawnTasks, carryOut_bind, carryOut_spawnTask]
    refine (ih ..).trans ?_
    rw [Supervisor.spawnTasks, List.map_cons, List.append_assoc, List.singleton_append]

/-- The checks of a start, in their order. -/
theorem carryOut_startGroup (c : GroupConfig) :
    (startGroup c).carryOut k =
      if k.supervisor.closed then (.error .shutDown, k)
      else match c.validate with
        | .error f => (.error (.config f), k)
        | .ok _ => match k.supervisor.registry.get c.retailer with
          | .error f => (.error (.registry f), k)
          | .ok _ => if k.supervisor.nameTaken c.name then (.error (.alreadyRunning c.name), k)
            else (establish c).carryOut k := by
  simp only [startGroup, carryOut_bind, carryOut_look]
  cases k.supervisor.closed with
  | true => rfl
  | false =>
    simp only [Bool.false_eq_true, if_false, carryOut_bind, carryOut_demand, carryOut_look]
    cases c.validate with
    | error f => rfl
    | ok =>
      simp only [Except.mapError, Except.map]
      cases k.supervisor.registry.get c.retailer with
      | error f => rfl
      | ok =>
        cases taken : k.supervisor.nameTaken c.name with
        | true => simp only [taken, if_true, carryOut_bind, carryOut_throw]
        | false => simp only [taken, Bool.false_eq_true, if_false]

theorem carryOut_establish {c : GroupConfig} {g : GroupId} {s : Supervisor}
    {seen : List Happening} (ok : k.supervisor.startGroup c = .ok (g, s, seen)) :
    (establish c).carryOut k =
      (.ok g, ⟨s, k.built ++ .source c :: c.tasks.map (.driver c), k.seen ++ seen⟩) := by
  obtain ⟨rfl, after⟩ := Supervisor.startGroup_ok ok
  obtain ⟨rfl, rfl⟩ := Prod.ext_iff.1 after
  unfold establish
  simp only [carryOut_bind, drawGroup, openFeed, carryOut_alter, carryOut_build,
    carryOut_spawnTasks, carryOut_act, carryOut_pure, List.append_nil, List.append_assoc,
    List.singleton_append]
  rfl

end

end Work

/-! ### Refusals -/

/-- What a request is to the machine. -/
def Request.occasion : Request → Supervisor.Occasion
  | .startGroup c => .startGroup c
  | .addTask g c => .addTask g c
  | .stopTask t => .stopTask t
  | .stopGroup g => .stopGroup g

namespace Supervisor

/-- Why a request is refused: the first of its conditions that fails. -/
inductive Refuses (s : Supervisor) : Request → SupervisorFault → Prop
  | down {c : GroupConfig} (closed : s.closed = true) : Refuses s (.startGroup c) .shutDown
  | invalidGroup {c : GroupConfig} {f : ConfigFault} (up : s.closed = false)
    (fails : c.validate = .error f) : Refuses s (.startGroup c) (.config f)
  | unregistered {c : GroupConfig} (up : s.closed = false) (valid : c.validate = .ok ())
    (unknown : s.registry.has c.retailer = false) :
    Refuses s (.startGroup c) (.registry (.notRegistered c.retailer))
  | nameTaken {c : GroupConfig} (up : s.closed = false) (valid : c.validate = .ok ())
    (known : s.registry.has c.retailer = true)
    (taken : ∃ group ∈ s.groups.values, group.config.name = c.name) :
    Refuses s (.startGroup c) (.alreadyRunning c.name)
  | invalidTask {g : GroupId} {c : TaskConfig} {f : TaskFault} (fails : c.validate = .error f) :
    Refuses s (.addTask g c) (.config (.task none f))
  | unknownGroup {g : GroupId} {c : TaskConfig} (valid : c.validate = .ok ())
    (absent : s.groups.get? g = none) : Refuses s (.addTask g c) (.unknownGroup g)
  | unknownTask {t : TaskId} (absent : ∀ g, s.listed? g t = none) :
    Refuses s (.stopTask t) (.unknownTask t)
  | noGroup {g : GroupId} (absent : s.groups.get? g = none) :
    Refuses s (.stopGroup g) (.unknownGroup g)

/-- Every condition of a request holds. -/
def Admits (s : Supervisor) : Request → Prop
  | .startGroup c => s.closed = false ∧ c.validate = .ok () ∧ s.registry.has c.retailer = true ∧
    ∀ group ∈ s.groups.values, group.config.name ≠ c.name
  | .addTask g c => c.validate = .ok () ∧ ∃ group, s.groups.get? g = some group
  | .stopTask t => ∃ g n, s.listed? g t = some n
  | .stopGroup g => ∃ group, s.groups.get? g = some group

section
variable {s : Supervisor} {k : Conduct} {r : Request} {f : SupervisorFault}

theorem takeOut_absent {t : TaskId} {groups : Table GroupId Group}
    (absent : ∀ group ∈ groups.values, group.tasks.get? t = none) :
    Work.takeOut t groups = (none, groups) := by
  induction groups with
  | nil => rfl
  | cons e groups ih =>
    obtain ⟨g, group⟩ := e
    have first : group.tasks.get? t = none := absent group List.mem_cons_self
    rw [Work.takeOut, first, ih fun group there => absent group (List.mem_cons_of_mem _ there),
      Table.erase_of_absent first]

theorem takeOut_found {t : TaskId} {g : GroupId} {n : Nat} {groups : Table GroupId Group}
    (apart : groups.keys.Nodup)
    (owner : groups.findSome? (fun (g, group) => (group.tasks.get? t).map fun n => (g, n)) =
      some (g, n)) :
    Work.takeOut t groups = (some n, groups.modify g fun group =>
      { group with tasks := group.tasks.erase t }) := by
  induction groups with
  | nil => contradiction
  | cons e groups ih =>
    obtain ⟨g', group⟩ := e
    obtain ⟨new, apart⟩ := List.nodup_cons.1 apart
    rw [List.findSome?_cons] at owner
    rw [Work.takeOut, Table.modify, List.map_cons]
    cases listed : group.tasks.get? t with
    | some n' =>
      simp only [listed, Option.map_some, Option.some.injEq, Prod.mk.injEq] at owner
      obtain ⟨rfl, rfl⟩ := owner
      have rest := Table.modify_of_absent new fun group =>
        { group with tasks := group.tasks.erase t }
      rw [Table.modify] at rest
      rw [if_pos rfl, rest]
    | none =>
      simp only [listed, Option.map_none] at owner
      have other : g' ≠ g := by
        rintro rfl
        obtain ⟨e, he, found⟩ := List.exists_of_findSome?_eq_some owner
        obtain ⟨_, -, same⟩ := Option.map_eq_some_iff.1 found
        exact new (List.mem_map.2 ⟨e, he, (Prod.mk.inj same).1⟩)
      rw [if_neg other, ih apart owner, Table.erase_of_absent listed]
      rfl

theorem Refuses.not_admits (refuses : s.Refuses r f) : ¬ s.Admits r := by
  intro admits
  cases refuses with
  | down closed => simp [Admits, closed] at admits
  | invalidGroup _ fails => simp [Admits, fails] at admits
  | unregistered _ _ unknown => simp [Admits, unknown] at admits
  | nameTaken _ _ _ taken =>
    obtain ⟨-, -, -, free⟩ := admits
    obtain ⟨group, running, same⟩ := taken
    exact free group running same
  | invalidTask fails => simp [Admits, fails] at admits
  | unknownGroup _ absent => simp [Admits, absent] at admits
  | unknownTask absent => simp [Admits, absent] at admits
  | noGroup absent => simp [Admits, absent] at admits

/-- A request is refused or all its conditions hold. -/
theorem refuses_or_admits (s : Supervisor) (r : Request) : (∃ f, s.Refuses r f) ∨ s.Admits r := by
  cases r with
  | startGroup c =>
    cases up : s.closed with
    | true => exact .inl ⟨_, .down up⟩
    | false =>
      cases valid : c.validate with
      | error f => exact .inl ⟨_, .invalidGroup up valid⟩
      | ok =>
        cases known : s.registry.has c.retailer with
        | false => exact .inl ⟨_, .unregistered up valid known⟩
        | true =>
          by_cases taken : ∃ group ∈ s.groups.values, group.config.name = c.name
          · exact .inl ⟨_, .nameTaken up valid known taken⟩
          · exact .inr ⟨up, valid, known, fun group running same => taken ⟨group, running, same⟩⟩
  | addTask g c =>
    cases valid : c.validate with
    | error f => exact .inl ⟨_, .invalidTask valid⟩
    | ok =>
      cases running : s.groups.get? g with
      | none => exact .inl ⟨_, .unknownGroup valid running⟩
      | some group => exact .inr ⟨valid, group, running⟩
  | stopTask t =>
    by_cases listed : ∃ g n, s.listed? g t = some n
    · exact .inr listed
    · exact .inl ⟨_, .unknownTask fun g => Option.eq_none_iff_forall_ne_some.2 fun n there =>
        listed ⟨g, n, there⟩⟩
  | stopGroup g =>
    cases running : s.groups.get? g with
    | none => exact .inl ⟨_, .noGroup running⟩
    | some group => exact .inr ⟨group, running⟩

theorem addTask_ok_iff {g : GroupId} {c : TaskConfig} : (∃ t s', s.addTask g c = .ok (t, s')) ↔
    c.validate = .ok () ∧ ∃ group, s.groups.get? g = some group := by
  unfold addTask
  simp only [bind, Except.bind, throw, throwThe, MonadExceptOf.throw]
  cases c.validate with
  | error f => simp [Except.mapError]
  | ok =>
    cases s.groups.get? g with
    | none => simp [Except.mapError]
    | some group => exact iff_of_true ⟨_, _, rfl⟩ ⟨rfl, _, rfl⟩

/-- What is refused is refused before anything was done. -/
theorem Refuses.carryOut (refuses : k.supervisor.Refuses r f)
    (ids : k.supervisor.groups.keys.Nodup) : r.work.carryOut k = (.error f, k) := by
  cases refuses with
  | down closed =>
    rw [Request.work, Work.carryOut_map, Work.carryOut_startGroup, if_pos closed]
    rfl
  | invalidGroup up fails =>
    rw [Request.work, Work.carryOut_map, Work.carryOut_startGroup, up, fails]
    rfl
  | unregistered up valid unknown =>
    rw [Request.work, Work.carryOut_map, Work.carryOut_startGroup, up, valid,
      Registry.get_eq_error unknown]
    rfl
  | @nameTaken c up valid known taken =>
    have same : k.supervisor.nameTaken c.name = true := by
      rw [← Bool.not_eq_false, nameTaken_eq_false_iff]
      obtain ⟨group, running, same⟩ := taken
      exact fun free => free group running same
    rw [Request.work, Work.carryOut_map, Work.carryOut_startGroup, up, valid,
      Registry.get_eq_ok_iff.2 known, same]
    rfl
  | invalidTask fails =>
    rw [Request.work, Work.carryOut_map, Work.addTask, Work.carryOut_bind, fails]
    rfl
  | unknownGroup valid absent =>
    rw [Request.work, Work.carryOut_map, Work.addTask, Work.carryOut_bind, valid]
    simp only [Work.carryOut_demand, Except.mapError, Except.map, Work.carryOut_bind,
      Work.carryOut_look, absent, Work.carryOut_throw]
  | @unknownTask t absent =>
    have searched : Work.takeOut t k.supervisor.groups = (none, k.supervisor.groups) := by
      refine takeOut_absent fun group running => ?_
      obtain ⟨⟨g, group⟩, there, rfl⟩ := List.mem_map.1 running
      have unlisted := absent g
      rwa [listed?, Table.get?_of_mem ids there] at unlisted
    rw [Request.work, Work.carryOut_map, Work.stopTask, Work.carryOut_bind, Work.carryOut_alter,
      searched]
    rfl
  | @noGroup g absent =>
    rw [Request.work, Work.carryOut_map, Work.stopGroup, Work.carryOut_bind, Work.carryOut_alter,
      absent, Table.erase_of_absent absent]
    rfl

/-- The machine takes what is admitted, and nothing else. -/
theorem isSome_take?_iff (ids : s.groups.keys.Nodup) :
    (s.take? r.occasion).isSome = true ↔ s.Admits r := by
  constructor
  · intro some
    obtain ⟨⟨s', seen⟩, taken⟩ := Option.isSome_iff_exists.1 some
    cases r with
    | startGroup c =>
      cases grants_of_take? taken with
      | startGroup ok => exact startGroup_ok_iff.1 ⟨_, _, _, ok⟩
    | addTask g c =>
      cases grants_of_take? taken with
      | addTask ok => exact addTask_ok_iff.1 ⟨_, _, ok⟩
    | stopTask t =>
      cases grants_of_take? taken with
      | stopTask ok =>
        obtain ⟨g, n, owner, -⟩ := stopTask_ok ok
        exact ⟨g, n, listed_of_owner? ids owner⟩
    | stopGroup g =>
      cases grants_of_take? taken with
      | stopGroup ok =>
        obtain ⟨group, as, running, -⟩ := stopGroup_ok ok
        exact ⟨group, running⟩
  · intro admits
    cases r with
    | startGroup c =>
      obtain ⟨g, s', seen, ok⟩ := startGroup_ok_iff.2 admits
      rw [Request.occasion, take?, ok]
      rfl
    | addTask g c =>
      obtain ⟨t, s', ok⟩ := addTask_ok_iff.2 admits
      rw [Request.occasion, take?, ok]
      rfl
    | stopTask t =>
      obtain ⟨g, n, listed⟩ := admits
      obtain ⟨g, n, owner⟩ := owner?_of_listed listed
      rw [Request.occasion, take?, stopTask, owner]
      rfl
    | stopGroup g =>
      obtain ⟨group, running⟩ := admits
      rw [Request.occasion, take?, stopGroup, running]
      rfl

/-- What the machine takes is carried out with the same outcome. -/
theorem carryOut_of_take? {more : List Happening} (ids : k.supervisor.groups.keys.Nodup)
    (taken : k.supervisor.take? r.occasion = some (s, more)) :
    ∃ receipt built, r.work.carryOut k = (.ok receipt, ⟨s, k.built ++ built, k.seen ++ more⟩) := by
  have admits : k.supervisor.Admits r := (isSome_take?_iff ids).1 (by rw [taken]; rfl)
  cases r with
  | startGroup c =>
    obtain ⟨up, valid, known, free⟩ := admits
    cases grants_of_take? taken with
    | @startGroup _ g _ _ ok =>
      refine ⟨.group g, .source c :: c.tasks.map (.driver c), ?_⟩
      rw [Request.work, Work.carryOut_map, Work.carryOut_startGroup, up, valid,
        Registry.get_eq_ok_iff.2 known, nameTaken_eq_false_iff.2 free]
      simp only [Bool.false_eq_true, if_false]
      rw [Work.carryOut_establish k ok]
      rfl
  | addTask g c =>
    cases grants_of_take? taken with
    | addTask ok =>
      obtain ⟨group, running, rfl⟩ := addTask_ok ok
      refine ⟨.task (k.supervisor.ids.taskId k.supervisor.ids.tasks), [.driver group.config c], ?_⟩
      rw [Request.work, Work.carryOut_map, Work.addTask, Work.carryOut_bind, admits.1]
      simp only [Work.carryOut_demand, Except.mapError, Except.map, Work.carryOut_bind,
        Work.carryOut_look, running, Work.carryOut_spawnTask, Work.carryOut_act, Work.carryOut_pure]
      rfl
  | stopTask t =>
    obtain ⟨g, n, listed⟩ := admits
    obtain ⟨g, n, owner⟩ := owner?_of_listed listed
    rw [Request.occasion, take?, stopTask, owner] at taken
    obtain ⟨rfl, rfl⟩ := Prod.mk.inj (Option.some.inj taken)
    refine ⟨.call k.supervisor.nextCall, [], ?_⟩
    rw [List.append_nil, Request.work, Work.carryOut_map, Work.stopTask, Work.carryOut_bind,
      Work.carryOut_alter, takeOut_found ids owner]
    rfl
  | stopGroup g =>
    obtain ⟨group, running⟩ := admits
    rw [Request.occasion, take?, stopGroup, running] at taken
    obtain ⟨rfl, rfl⟩ := Prod.mk.inj (Option.some.inj taken)
    refine ⟨.call k.supervisor.nextCall, [], ?_⟩
    rw [List.append_nil, Request.work, Work.carryOut_map, Work.stopGroup, Work.carryOut_bind,
      Work.carryOut_alter, running]
    simp only [Work.carryOut_bind, Work.carryOut_look, Work.carryOut_act, Work.carryOut_alter,
      Work.carryOut_pure, List.append_nil]
    rfl

/-! ### After a shutdown -/

/-- The ids of the running groups are apart, and a supervisor that was shut down runs none. -/
structure Tended (h : List (Leg Supervisor Occasion Happening)) (s : Supervisor) : Prop where
  ids : s.groups.keys.Nodup
  down : s.closed = true → s.groups = []
  asked : (∃ l ∈ h, l.input = .shutdown) → s.closed = true

section
variable {s' : Supervisor} {o : Occasion} {seen : List Happening}
  {h : List (Leg Supervisor Occasion Happening)}

theorem ids_apart_of_take? (ids : s.groups.keys.Nodup) (taken : s.take? o = some (s', seen)) :
    s'.groups.keys.Nodup := by
  cases grants_of_take? taken with
  | act acts =>
    obtain ⟨-, -, -, groups, -⟩ := act?_ok acts
    exact groups ▸ ids
  | settle settles => exact (settles_frame settles).1 ▸ ids
  | startGroup ok =>
    obtain ⟨-, -, groups, -⟩ := startGroup_frame ok
    exact groups ▸ Table.nodup_put _ _ _ ids
  | addTask ok =>
    obtain ⟨group, -, rfl⟩ := addTask_ok ok
    exact Table.nodup_put _ _ _ ids
  | stopTask ok =>
    obtain ⟨g, n, -, -, -, -, groups, -⟩ := stopTask_ok ok
    exact groups ▸ Table.nodup_modify _ _ _ ids
  | stopGroup ok =>
    obtain ⟨group, as, -, -, -, -, -, groups, -⟩ := stopGroup_ok ok
    exact groups ▸ Table.nodup_erase _ _ ids
  | shutdown =>
    cases up : s.closed with
    | true =>
      rw [shutdown_closed up]
      exact ids
    | false =>
      obtain ⟨-, -, -, -, -, none, -⟩ := shutdown_open up
      exact none ▸ List.nodup_nil

/-- A shutdown closes the supervisor, and nothing opens it again. -/
theorem closed_of_take? (taken : s.take? o = some (s', seen)) :
    s'.closed = true ↔ s.closed = true ∨ o = .shutdown := by
  by_cases called : o = .shutdown
  · subst called
    refine iff_of_true ?_ (.inr rfl)
    obtain ⟨rfl, rfl⟩ := Prod.mk.inj (Option.some.inj taken)
    cases up : s.closed with
    | true => exact (congrArg (fun p => p.1.closed) (shutdown_closed up)).trans up
    | false =>
      obtain ⟨-, -, -, -, -, -, -, -, closed, -⟩ := shutdown_open up
      exact closed
  · rw [(standing_take? taken called).2]
    exact (or_iff_left called).symm

/-- Where no group runs and none may be started, none runs afterwards. -/
theorem no_group_of_take? (closed : s.closed = true) (empty : s.groups = [])
    (taken : s.take? o = some (s', seen)) : s'.groups = [] := by
  refine List.eq_nil_iff_forall_not_mem.2 fun e there => ?_
  have ids : s.groups.keys.Nodup := by
    rw [empty]
    exact List.nodup_nil
  have running := Table.get?_of_mem (ids_apart_of_take? ids taken) there
  rcases origin_of_take? taken running with ⟨up, -⟩ | ⟨old, before, -⟩
  · rw [closed] at up
    contradiction
  · rw [empty] at before
    contradiction

theorem Tended.step (tended : s.Tended h) (taken : s.take? o = some (s', seen)) :
    s'.Tended (h ++ [⟨s, o, seen, s'⟩]) := by
  refine ⟨ids_apart_of_take? tended.ids taken, fun closed => ?_, fun asked => ?_⟩
  · cases up : s.closed with
    | true => exact no_group_of_take? up (tended.down up) taken
    | false =>
      rcases (closed_of_take? taken).1 closed with down | rfl
      · rw [up] at down
        contradiction
      · obtain ⟨rfl, rfl⟩ := Prod.mk.inj (Option.some.inj taken)
        obtain ⟨-, -, -, -, -, none, -⟩ := shutdown_open up
        exact none
  · obtain ⟨l, there, called⟩ := asked
    rw [closed_of_take? taken]
    rcases List.mem_append.1 there with before | last
    · exact .inl (tended.asked ⟨l, before, called⟩)
    · obtain rfl := List.mem_singleton.1 last
      exact .inr called

end

end

/-- Requests are granted when all their conditions hold, and otherwise refused for the first
that fails. What is refused changes nothing; after a shutdown no group runs. -/
structure Scrupulous (h : List (Leg Supervisor Occasion Happening)) (s : Supervisor) : Prop where
  grants : ∀ (r : Request) built seen,
    (∃ receipt k, r.work.carryOut ⟨s, built, seen⟩ = (.ok receipt, k)) ↔ s.Admits r
  refuses : ∀ (r : Request) f built seen k, r.work.carryOut ⟨s, built, seen⟩ = (.error f, k) ↔
    s.Refuses r f ∧ k = ⟨s, built, seen⟩
  /-- The machine takes what is granted, and comes to where the work led. -/
  takes : ∀ (r : Request) built seen, match r.work.carryOut ⟨s, built, seen⟩ with
    | (.ok _, k) => ∃ more, s.take? r.occasion = some (k.supervisor, more) ∧ k.seen = seen ++ more
    | (.error _, _) => s.take? r.occasion = none
  down : (∃ l ∈ h, l.input = .shutdown) → s.groups = [] ∧ ∀ c built seen,
    (Request.startGroup c).work.carryOut ⟨s, built, seen⟩ = (.error .shutDown, ⟨s, built, seen⟩)

section
variable {registry : Registry Unit} {settings : Settings} {ids : IdSource}
  {h : List (Leg Supervisor Occasion Happening)} {s : Supervisor}

theorem tended_of_trail (trail : Trail take? (.new registry settings ids) h s) : s.Tended h := by
  induction trail with
  | rest => exact ⟨List.nodup_nil, fun _ => rfl, fun ⟨l, there, _⟩ => absurd there List.not_mem_nil⟩
  | step past taken ih => exact ih.step taken

/-- At any time, a supervisor that refuses a request is as if it had not been asked: no id was
drawn, nothing was built or put to work, and nobody noticed. -/
theorem refusals_change_nothing (trail : Trail take? (.new registry settings ids) h s) :
    s.Scrupulous h := by
  have tended := tended_of_trail trail
  have refused : ∀ {r f} built seen, s.Refuses r f →
      r.work.carryOut ⟨s, built, seen⟩ = (.error f, ⟨s, built, seen⟩) :=
    fun built seen refuses => refuses.carryOut (k := ⟨s, built, seen⟩) tended.ids
  have granted : ∀ {r} built seen, s.Admits r → ∃ receipt s' more built',
      s.take? r.occasion = some (s', more) ∧
        r.work.carryOut ⟨s, built, seen⟩ = (.ok receipt, ⟨s', built ++ built', seen ++ more⟩) := by
    intro r built seen admits
    obtain ⟨⟨s', more⟩, taken⟩ :=
      Option.isSome_iff_exists.1 ((isSome_take?_iff tended.ids).2 admits)
    obtain ⟨receipt, built', done⟩ :=
      carryOut_of_take? (k := ⟨s, built, seen⟩) tended.ids taken
    exact ⟨receipt, s', more, built', taken, done⟩
  refine ⟨fun r built seen => ?_, fun r f built seen k => ?_, fun r built seen => ?_,
    fun asked => ?_⟩
  · constructor
    · rintro ⟨receipt, k, done⟩
      rcases refuses_or_admits s r with ⟨f, refuses⟩ | admits
      · rw [refused built seen refuses] at done
        have same := (Prod.mk.inj done).1
        contradiction
      · exact admits
    · intro admits
      obtain ⟨receipt, s', more, built', -, done⟩ := granted built seen admits
      exact ⟨receipt, _, done⟩
  · constructor
    · intro failed
      rcases refuses_or_admits s r with ⟨f', refuses⟩ | admits
      · rw [refused built seen refuses] at failed
        obtain ⟨same, rfl⟩ := Prod.mk.inj failed
        exact ⟨Except.error.inj same ▸ refuses, rfl⟩
      · obtain ⟨receipt, s', more, built', -, done⟩ := granted built seen admits
        rw [done] at failed
        have same := (Prod.mk.inj failed).1
        contradiction
    · rintro ⟨refuses, rfl⟩
      exact refused built seen refuses
  · rcases refuses_or_admits s r with ⟨f, refuses⟩ | admits
    · rw [refused built seen refuses]
      rw [← Option.not_isSome_iff_eq_none, isSome_take?_iff tended.ids]
      exact refuses.not_admits
    · obtain ⟨receipt, s', more, built', taken, done⟩ := granted built seen admits
      rw [done]
      exact ⟨more, taken, rfl⟩
  · have closed := tended.asked asked
    exact ⟨tended.down closed, fun c built seen => refused built seen (.down closed)⟩

end

/-- The name of a running group is taken, and after the shutdown nothing can be started. -/
def lastDay : List Occasion := [.startGroup pair, .shutdown]

theorem refusals_of_a_last_day :
    ∃ h s, Trail take? store h s ∧ s.Scrupulous h ∧ s.groups = [] ∧
      (Request.startGroup pair).work.carryOut ⟨s, [], []⟩ = (.error .shutDown, ⟨s, [], []⟩) ∧
      ∃ h' s', Trail take? store h' s' ∧ s'.Scrupulous h' ∧
        (Request.startGroup pair).work.carryOut ⟨s', [], []⟩ =
          (.error (.alreadyRunning "demo"), ⟨s', [], []⟩) := by
  have first := Trail.of_inputs take? store (lastDay.take 1)
  have last := Trail.of_inputs take? store lastDay
  have before := refusals_change_nothing first
  have after := refusals_change_nothing last
  obtain ⟨none, refused⟩ := after.down ⟨_, List.mem_of_getElem? (i := 1) rfl, rfl⟩
  have taken : (Trail.follow take? store (lastDay.take 1)).2.Refuses (.startGroup pair)
      (.alreadyRunning "demo") :=
    .nameTaken rfl (by decide) (by decide) ⟨_, List.mem_of_getElem? (i := 0) rfl, rfl⟩
  exact ⟨_, _, last, after, none, refused pair [] [], _, _, first, before,
    (before.refuses _ _ [] [] _).2 ⟨taken, rfl⟩⟩

end Supervisor

end Restock
