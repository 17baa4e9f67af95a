import Labyrinth.Proofs.Run.Hosting

/-!
# What the owner of a host keeps

Whatever the owner of a host calls, and whatever its workers and readers do meanwhile, only the run
started last can be working, and the owner has it in its place or in its hand
(`Hosting.Kept.act`). So a run begins when all others are at their ends, and a wait tells of the run
started last (`Hosting.Told.act`). What workers and readers do is one relation, `Hosting.Quiet`.
-/

namespace Labyrinth

namespace Answer

@[simp] theorem due_started (answers : List Answer) (n : Nat) :
    due (answers ++ [.started n]) = some n := by
  simp [due]

@[simp] theorem due_waited (answers : List Answer) (report : Option Report) :
    due (answers ++ [.waited report]) = none := by
  simp [due]

end Answer

/-- A run later on: its end, once reached, is kept, and so are its handles. -/
structure HostedRun.Later (r r' : HostedRun) : Prop where
  /-- The job is the same. -/
  job : r'.job = r.job
  /-- The worker's handle is the same. -/
  worker : r'.worker = r.worker
  /-- The reader's handle is the same. -/
  reader : r'.reader = r.reader
  /-- The summary is kept. -/
  report : ∀ report, r.scene.run.report? = some report → r'.scene.run.report? = some report

/-- The place of the active run has been emptied. -/
def Owner.emptied : Owner → Bool
  | .idle | .emptying _ => false
  | .checking _ _ | .raising _ _ | .joining _ _ | .vacant _ _ | .handing _ | .gone => true

/-- The owner is not about to start another run, to answer a wait or to leave for good. -/
def Owner.keepsDue : Owner → Bool
  | .idle | .emptying _ | .checking _ _ | .raising _ _ | .joining _ _ => true
  | .vacant _ _ | .handing _ | .gone => false

namespace Hosting

variable {s t u : Hosting} {n k handle : Nat} {r : HostedRun} {report : Report} {job : Job}

/-! ## What workers and readers leave as it is -/

/-- What the owner had no part in. -/
structure Quiet (s t : Hosting) : Prop where
  /-- The settings are the same. -/
  config : t.config = s.config
  /-- The owner is where it was. -/
  owner : t.owner = s.owner
  /-- The same run is in its place. -/
  active : t.active = s.active
  /-- Nothing was answered. -/
  answers : t.answers = s.answers
  /-- The handles are the same. -/
  handles : t.board.handles = s.board.handles
  /-- There are as many signals. -/
  signals : t.board.raised.length = s.board.raised.length
  /-- There are as many runs. -/
  length : t.runs.length = s.runs.length
  /-- Each run is what it was, later on. -/
  runs : ∀ (n : Nat) (r' : HostedRun), t.runs[n]? = some r' →
    ∃ r : HostedRun, s.runs[n]? = some r ∧ r.Later r'

theorem Quiet.refl (s : Hosting) : Quiet s s :=
  ⟨rfl, rfl, rfl, rfl, rfl, rfl, rfl, fun _ r hr => ⟨r, hr, rfl, rfl, rfl, fun _ h => h⟩⟩

theorem Quiet.trans (hst : Quiet s t) (htu : Quiet t u) : Quiet s u where
  config := htu.config.trans hst.config
  owner := htu.owner.trans hst.owner
  active := htu.active.trans hst.active
  answers := htu.answers.trans hst.answers
  handles := htu.handles.trans hst.handles
  signals := htu.signals.trans hst.signals
  length := htu.length.trans hst.length
  runs n r'' hr'' := by
    obtain ⟨r', hr', hlater'⟩ := htu.runs n r'' hr''
    obtain ⟨r, hr, hlater⟩ := hst.runs n r' hr'
    exact ⟨r, hr, hlater'.job.trans hlater.job, hlater'.worker.trans hlater.worker,
      hlater'.reader.trans hlater.reader, fun _ h => hlater'.report _ (hlater.report _ h)⟩

theorem quiet_raise (s : Hosting) (handle : Nat) : Quiet s (s.raise handle) :=
  ⟨rfl, rfl, rfl, rfl, rfl, by simp [raise, SignalBoard.raise], rfl,
    fun _ r hr => ⟨r, hr, rfl, rfl, rfl, fun _ h => h⟩⟩

theorem quiet_onRun {f : HostedRun → HostedRun} (hf : ∀ r, s.runs[n]? = some r → r.Later (f r)) :
    Quiet s (s.onRun n f) := by
  refine ⟨rfl, rfl, rfl, rfl, rfl, rfl, by simp [onRun], ?_⟩
  intro k r' hr'
  simp only [onRun, List.getElem?_modify] at hr'
  split at hr'
  next hk =>
    subst hk
    obtain ⟨r, hr, rfl⟩ := Option.map_eq_some_iff.mp hr'
    exact ⟨r, hr, hf r hr⟩
  · rw [id_map'] at hr'
    exact ⟨r', hr', rfl, rfl, rfl, fun _ h => h⟩

theorem report?_work (buffer : Option Nat) (up : Bool) {x : Scene}
    (h : x.run.report? = some report) :
    ((x.withSignal up).work buffer).run.report? = some report :=
  Scene.report?_act (x := x.withSignal up) h .work

theorem quiet_work (s : Hosting) (n : Nat) : Quiet s (s.work n) := by
  rw [work]
  cases hr : s.runs[n]? with
  | none => exact .refl s
  | some r =>
    have hrun : Quiet s (s.onRun n fun r' => { r' with
        scene := (r.scene.withSignal (s.board.isUp r.worker)).work s.config.eventBuffer }) := by
      refine quiet_onRun fun r' hr' => ⟨rfl, rfl, rfl, fun _ h => ?_⟩
      obtain rfl : r = r' := Option.some.inj (hr.symm.trans hr')
      exact report?_work _ _ h
    simp only
    split
    · exact hrun.trans (quiet_raise _ _)
    · exact hrun

theorem quiet_byReader {f : HostedRun → Hosting} (hf : ∀ r, Quiet s (f r)) :
    Quiet s (s.byReader n f) := by
  rw [byReader]
  split
  · exact .refl s
  · split
    · exact hf _
    · exact .refl s

/-- It is no step of a call of the owner. -/
def Act.isQuiet : Act → Bool
  | .call _ | .proceed _ => false
  | .cancel | .work _ | .receive _ | .stop _ | .release _ | .disconnect _ => true

/-- What workers and readers do leaves the owner where it is, and so does a signal that it raises
outside its calls. -/
theorem quiet_act {a : Act} (ha : a.isQuiet = true) : Quiet s (s.act a) := by
  cases a with
  | call | proceed => cases ha
  | cancel =>
    simp only [act]
    split
    · exact quiet_raise _ _
    · exact .refl s
  | work n => exact quiet_work s n
  | receive n =>
    refine quiet_byReader fun _ => quiet_onRun fun r _ => ⟨rfl, rfl, rfl, fun report h => ?_⟩
    have hreceive : (r.scene.act none .receive).run.report? = some report :=
      Scene.report?_act h .receive
    exact hreceive
  | stop n => exact quiet_byReader fun r => quiet_raise _ _
  | release n =>
    exact quiet_byReader fun r => (quiet_raise _ _).trans <| quiet_onRun fun _ _ =>
      ⟨rfl, rfl, rfl, fun _ h => h⟩
  | disconnect n =>
    refine quiet_onRun fun r _ => ?_
    split
    · exact ⟨rfl, rfl, rfl, fun _ h => h⟩
    · exact ⟨rfl, rfl, rfl, fun _ h => h⟩

/-! ## What the owner can rely on -/

/-- The run that the owner keeps, in its place or in its hand. -/
def charge (s : Hosting) : Option Charge :=
  match s.owner with
  | .checking _ run | .raising _ run | .joining _ run | .handing run => some run
  | .idle | .emptying _ | .vacant _ _ | .gone => s.active

/-- Who holds what: each run has a signal of its own, and the owner keeps the run started last
as long as that is not at its end; all others are. -/
structure Kept (s : Hosting) : Prop where
  /-- There is a signal for each run. -/
  signals : s.board.raised.length = s.runs.length
  /-- The worker and the reader of a run have handles on its signal. -/
  handles : ∀ (n : Nat) (r : HostedRun), s.runs[n]? = some r →
    s.board.On r.worker n ∧ s.board.On r.reader n
  /-- So has the owner, for the run started last. -/
  charge : ∀ run ∈ s.charge, s.board.On run.handle run.number ∧ run.number + 1 = s.runs.length
  /-- A run in the owner's hand is no more in its place. -/
  place : s.owner.emptied = true → s.active = none
  /-- A run that is not at its end is kept. -/
  working : ∀ n, s.isWorking n = true → ∃ run ∈ s.charge, run.number = n

/-- The run that the owner keeps is one of those there are. -/
theorem Kept.lt_length (hs : s.Kept) {run : Charge} (hrun : run ∈ s.charge) :
    run.number < s.runs.length := by
  have hlast := (hs.charge run hrun).2
  omega

theorem isWorking_iff : s.isWorking n = true ↔ n < s.runs.length ∧ s.report? n = none := by
  simp only [isWorking, report?]
  cases hr : s.runs[n]? with
  | none => simp [List.getElem?_eq_none_iff.mp hr]
  | some r =>
    simp [(List.getElem?_eq_some_iff.mp hr).1, LiveRun.isOver]

theorem Quiet.getElem? (h : Quiet s t) (hr : s.runs[n]? = some r) :
    ∃ r' : HostedRun, t.runs[n]? = some r' ∧ r.Later r' := by
  have hn : n < t.runs.length := h.length ▸ (List.getElem?_eq_some_iff.mp hr).1
  obtain ⟨r₀, hr₀, hlater⟩ := h.runs n _ (List.getElem?_eq_getElem hn)
  obtain rfl : r = r₀ := Option.some.inj (hr.symm.trans hr₀)
  exact ⟨_, List.getElem?_eq_getElem hn, hlater⟩

theorem Quiet.report? (h : Quiet s t) (hr : s.report? n = some report) :
    t.report? n = some report := by
  obtain ⟨r, hrun, hreport⟩ := Option.bind_eq_some_iff.mp hr
  obtain ⟨r', hr', hlater⟩ := h.getElem? hrun
  exact Option.bind_eq_some_iff.mpr ⟨r', hr', hlater.report _ hreport⟩

theorem Quiet.isWorking (h : Quiet s t) (hn : t.isWorking n = true) : s.isWorking n = true := by
  rw [isWorking_iff] at hn ⊢
  rw [h.length] at hn
  refine ⟨hn.1, Option.eq_none_iff_forall_ne_some.mpr fun report hr => ?_⟩
  rw [h.report? hr] at hn
  cases hn.2

theorem Quiet.charge (h : Quiet s t) : t.charge = s.charge := by
  rw [Hosting.charge, Hosting.charge, h.owner, h.active]

theorem Quiet.on (h : Quiet s t) (hon : s.board.On handle n) : t.board.On handle n := by
  rw [SignalBoard.On, h.handles]
  exact hon

theorem kept_create (c : Config) : (create c).Kept where
  signals := rfl
  handles n r hr := by simp [create] at hr
  charge := nofun
  place := fun _ => rfl
  working n hn := by simp [isWorking, create] at hn

theorem Kept.of_quiet (hs : s.Kept) (h : Quiet s t) : t.Kept where
  signals := by rw [h.signals, h.length, hs.signals]
  handles n r' hr' := by
    obtain ⟨r, hr, hlater⟩ := h.runs n r' hr'
    obtain ⟨hworker, hreader⟩ := hs.handles n r hr
    rw [hlater.worker, hlater.reader]
    exact ⟨h.on hworker, h.on hreader⟩
  charge run hrun := by
    obtain ⟨hon, hlast⟩ := hs.charge run (h.charge ▸ hrun)
    exact ⟨h.on hon, h.length ▸ hlast⟩
  place howner := by
    rw [h.active]
    exact hs.place (h.owner ▸ howner)
  working n hn := by
    rw [h.charge]
    exact hs.working n (h.isWorking hn)

/-- The owner goes on and keeps the same run. -/
theorem Kept.of_owner (hs : s.Kept) {owner : Owner} {active : Option Charge}
    {answers : List Answer} (hcharge : Hosting.charge { s with owner, active, answers } = s.charge)
    (hplace : owner.emptied = true → active = none) :
    Kept { s with owner, active, answers } where
  signals := hs.signals
  handles := hs.handles
  charge run hrun := hs.charge run (hcharge ▸ hrun)
  place := hplace
  working n hn := by
    rw [hcharge]
    exact hs.working n hn

/-- The owner lets go of a run that is at its end. -/
theorem Kept.vacant (hs : s.Kept) {call : Call} {run : Charge}
    (howner : s.owner = .joining call run) (hreport : s.report? run.number = some report) :
    Kept { s with owner := .vacant call (some report) } := by
  have hempty : s.active = none := hs.place (by rw [howner]; rfl)
  have hcharge : s.charge = some run := by rw [Hosting.charge, howner]
  refine ⟨hs.signals, hs.handles, ?_, fun _ => hempty, ?_⟩
  · intro run' hrun'
    rw [Hosting.charge, hempty] at hrun'
    cases hrun'
  · intro n hn
    obtain ⟨run', hrun', rfl⟩ := hs.working n hn
    rw [hcharge] at hrun'
    cases hrun'
    have hover := (isWorking_iff.mp hn).2
    exact nomatch hreport.symm.trans hover

/-- The runs after another one has begun. -/
theorem getElem?_runs_begin (h : (s.begin job).runs[n]? = some r) :
    s.runs[n]? = some r ∨ (n = s.runs.length ∧
      r = ⟨job, .ofRun (job.run s.config.maxDepth) [], s.board.handles.length + 1,
        s.board.handles.length, .held⟩) := by
  simp only [begin, List.getElem?_append] at h
  split at h
  · exact .inl h
  · obtain ⟨hn, hr⟩ := List.getElem?_eq_some_iff.mp h
    rw [List.length_singleton, Nat.lt_one_iff] at hn
    simp only [hn, List.getElem_cons_zero] at hr
    exact .inr ⟨by omega, hr.symm⟩

theorem report?_begin (h : s.report? n = some report) : (s.begin job).report? n = some report := by
  obtain ⟨r, hr, hreport⟩ := Option.bind_eq_some_iff.mp h
  refine Option.bind_eq_some_iff.mpr ⟨r, ?_, hreport⟩
  simp only [begin]
  rw [List.getElem?_append_left (List.getElem?_eq_some_iff.mp hr).1, hr]

/-- A run that begins leaves the signals of the others as they are. -/
theorem isUp_begin (hkept : s.Kept) (hr : s.runs[n]? = some r) (job : Job) :
    (s.begin job).board.isUp r.worker = s.board.isUp r.worker := by
  have hon := (hkept.handles n r hr).1
  have hn : n < s.board.raised.length := hkept.signals ▸ (List.getElem?_eq_some_iff.mp hr).1
  rw [hon.isUp_eq, Hosting.begin, hon.issue.isUp_eq]
  simp [List.getD_eq_getElem?_getD, List.getElem?_append_left hn]

/-- The signal of a run that begins is down. -/
theorem isUp_begin_self (s : Hosting) (job : Job) :
    (s.begin job).board.isUp (s.board.handles.length + 1) = false := by
  have hon : s.board.issue.On (s.board.handles.length + 1) s.board.raised.length :=
    s.board.on_issue (by decide)
  rw [Hosting.begin, hon.isUp_eq]
  simp

/-- A run begins when no other is working. -/
theorem Kept.begin (hs : s.Kept) {last : Option Report}
    (howner : s.owner = .vacant (.start job) last) : (s.begin job).Kept := by
  have hempty : s.active = none := hs.place (by rw [howner]; rfl)
  have hlength : (s.begin job).runs.length = s.runs.length + 1 := by simp [Hosting.begin]
  have hon {k : Nat} (hk : k < 3) :
      (s.begin job).board.On (s.board.handles.length + k) s.runs.length := by
    rw [← hs.signals]
    exact s.board.on_issue hk
  refine ⟨?_, ?_, ?_, fun _ => hempty, ?_⟩
  · simp [Hosting.begin, hs.signals]
  · intro n r hr
    obtain hold | ⟨rfl, rfl⟩ := getElem?_runs_begin hr
    · exact (hs.handles n r hold).imp .issue .issue
    · exact ⟨hon (k := 1) (by decide), hon (k := 0) (by decide)⟩
  · rintro run ⟨⟩
    exact ⟨hon (k := 2) (by decide), hlength.symm⟩
  · intro n hn
    obtain ⟨hn, hreport⟩ := isWorking_iff.mp hn
    refine ⟨_, rfl, ?_⟩
    have hnot : ¬ n < s.runs.length := by
      intro hlt
      have hnone : s.report? n = none := by
        refine Option.eq_none_iff_forall_ne_some.mpr fun report h => ?_
        exact nomatch (report?_begin h).symm.trans hreport
      obtain ⟨run, hrun, -⟩ := hs.working n (isWorking_iff.mpr ⟨hlt, hnone⟩)
      rw [Hosting.charge, howner, hempty] at hrun
      cases hrun
    change s.runs.length = n
    omega

theorem Kept.proceed (hs : s.Kept) (seen : Bool) : (s.proceed seen).Kept := by
  have hplace := hs.place
  simp only [Hosting.proceed]
  split
  next howner => exact hs
  next howner => exact hs
  next call howner =>
    split
    next hempty => exact hs.of_owner (by simp [Hosting.charge, howner]) fun _ => hempty
    next run hrun =>
      refine hs.of_owner ?_ fun _ => rfl
      cases call.stops <;> simp [Hosting.charge, howner, hrun]
  next call run howner =>
    rw [howner] at hplace
    refine hs.of_owner ?_ fun _ => hplace rfl
    split <;> simp [Hosting.charge, howner]
  next call run howner =>
    rw [howner] at hplace
    refine (hs.of_quiet (quiet_raise s run.handle)).of_owner ?_ fun _ => hplace rfl
    simp [Hosting.charge, raise, howner]
  next call run howner =>
    split
    · exact hs
    next report hreport => exact hs.vacant howner hreport
  next howner => exact hs.begin howner
  next howner =>
    exact hs.of_owner (by simp [Hosting.charge, howner]) nofun
  next howner =>
    rw [howner] at hplace
    exact hs.of_owner (by simp [Hosting.charge, howner]) fun _ => hplace rfl
  next run howner =>
    exact hs.of_owner (by simp [Hosting.charge, howner]) nofun

theorem Kept.act (hs : s.Kept) (a : Act) : (s.act a).Kept := by
  cases a with
  | call c =>
    simp only [Hosting.act]
    split
    next howner => exact hs.of_owner (by simp [Hosting.charge, howner]) nofun
    · exact hs
  | proceed seen => exact hs.proceed seen
  | cancel | work | receive | stop | release | disconnect =>
    exact hs.of_quiet (quiet_act rfl)

/-! ## What the owner is answered -/

/-- A wait after some answers is owed the summary of the run that is due, and that there is; or
nothing, if none is due. -/
def Owes (s : Hosting) (answers : List Answer) (report : Option Report) : Prop :=
  (∃ n, Answer.due answers = some n ∧ report.isSome = true ∧ s.report? n = report) ∨
    (Answer.due answers = none ∧ report = none)

/-- What was answered is right. -/
structure Told (s : Hosting) : Prop where
  /-- When a run was started, all before it were at their ends. -/
  started : ∀ n, .started n ∈ s.answers → ∀ k < n, ∃ report, s.report? k = some report
  /-- A wait was answered with what it was owed. -/
  waited : ∀ before report after, s.answers = before ++ .waited report :: after →
    s.Owes before report
  /-- The owner keeps the run that is due. -/
  due : s.owner.keepsDue = true → Answer.due s.answers = s.charge.map (·.number)
  /-- A wait that is about to be answered has what it is owed. -/
  owed : ∀ report, s.owner = .vacant .wait report → s.Owes s.answers report

theorem Owes.mono (hst : ∀ n report, s.report? n = some report → t.report? n = some report)
    {answers : List Answer} {last : Option Report} (h : s.Owes answers last) :
    t.Owes answers last := by
  obtain ⟨n, hdue, hsome, hreport⟩ | hnone := h
  · obtain ⟨report, rfl⟩ := Option.isSome_iff_exists.mp hsome
    exact .inl ⟨n, hdue, rfl, hst n report hreport⟩
  · exact .inr hnone

theorem told_create (c : Config) : (create c).Told where
  started := nofun
  waited before _ _ h := by simp [create] at h
  due := fun _ => rfl
  owed _ h := nomatch h

theorem Told.of_quiet (hs : s.Told) (h : Quiet s t) : t.Told where
  started n hn k hk := by
    obtain ⟨report, hreport⟩ := hs.started n (h.answers ▸ hn) k hk
    exact ⟨report, h.report? hreport⟩
  waited before report after hanswers :=
    (hs.waited before report after (h.answers ▸ hanswers)).mono fun _ _ => h.report?
  due howner := by
    rw [h.answers, h.charge]
    exact hs.due (h.owner ▸ howner)
  owed report howner := by
    rw [h.answers]
    exact (hs.owed report (h.owner ▸ howner)).mono fun _ _ => h.report?

/-- An owner that keeps the run that is due has it in its place or in its hand. -/
theorem Told.due_of (hs : s.Told) {owner : Owner} (howner : s.owner = owner)
    (hkeeps : owner.keepsDue = true) :
    Answer.due s.answers = (Hosting.charge { s with owner }).map (·.number) := by
  subst howner
  exact hs.due hkeeps

/-- The owner goes on, and nothing is answered. -/
theorem Told.of_owner (hs : s.Told) {owner : Owner} {active : Option Charge}
    (hdue : owner.keepsDue = true →
      Answer.due s.answers = (Hosting.charge { s with owner, active }).map (·.number))
    (howed : ∀ report, owner = .vacant .wait report → s.Owes s.answers report) :
    Told { s with owner, active } :=
  ⟨hs.started, hs.waited, hdue, howed⟩

/-- The owner is answered, and is idle again. -/
theorem Told.answer (hs : s.Told) {active : Option Charge} {a : Answer}
    (hstarted : ∀ n, a = .started n → ∀ k < n, ∃ report, s.report? k = some report)
    (hwaited : ∀ report, a = .waited report → s.Owes s.answers report)
    (hdue : Answer.due (s.answers ++ [a]) = active.map (·.number)) :
    Told { s with owner := .idle, active, answers := s.answers ++ [a] } where
  started n hn := by
    obtain hold | hnew := List.mem_append.mp hn
    · exact hs.started n hold
    · exact hstarted n (List.mem_singleton.mp hnew).symm
  waited before report after h := by
    obtain rfl | ⟨after', x, rfl⟩ := List.eq_nil_or_concat after
    · obtain ⟨rfl, hlast⟩ := List.append_inj' h rfl
      exact hwaited report (List.singleton_inj.mp hlast)
    · change s.answers ++ [a] = _ at h
      rw [List.concat_eq_append, ← List.cons_append, ← List.append_assoc] at h
      exact hs.waited before report after' (List.append_inj' h rfl).1
  due _ := hdue
  owed _ h := nomatch h

theorem Told.begin (hs : s.Told) (job : Job) : (s.begin job).Told where
  started n hn k hk := (hs.started n hn k hk).imp fun _ => report?_begin
  waited before report after h := (hs.waited before report after h).mono fun _ _ => report?_begin
  due := nofun
  owed _ h := nomatch h

/-- Of a run that the owner keeps, all before it are at their ends. -/
theorem Kept.exists_report? (hs : s.Kept) {run : Charge} (hrun : s.charge = some run)
    (hk : k < run.number) : ∃ report, s.report? k = some report := by
  have hlast := (hs.charge run hrun).2
  refine Option.ne_none_iff_exists'.mp fun hnone => ?_
  obtain ⟨run', hrun', rfl⟩ := hs.working k (isWorking_iff.mpr ⟨by omega, hnone⟩)
  rw [hrun] at hrun'
  cases hrun'
  exact Nat.lt_irrefl _ hk

theorem Told.proceed (hs : s.Told) (hkept : s.Kept) (seen : Bool) : (s.proceed seen).Told := by
  simp only [Hosting.proceed]
  split
  next => exact hs
  next => exact hs
  next call howner =>
    have hdue := hs.due_of howner rfl
    split
    next hempty =>
      refine hs.of_owner nofun ?_
      rintro report ⟨⟩
      exact .inr ⟨by rw [hdue, hempty]; rfl, rfl⟩
    next run hrun =>
      rw [hrun] at hdue
      refine hs.of_owner ?_ ?_
      all_goals cases call.stops
      · exact fun _ => hdue
      · exact fun _ => hdue
      · exact fun _ h => nomatch h
      · exact fun _ h => nomatch h
  next call run howner =>
    have hdue := hs.due_of howner rfl
    refine hs.of_owner ?_ ?_
    all_goals split
    · exact fun _ => hdue
    · exact fun _ => hdue
    · exact fun _ h => nomatch h
    · exact fun _ h => nomatch h
  next call run howner =>
    have hdue := hs.due_of howner rfl
    exact (hs.of_quiet (quiet_raise s run.handle)).of_owner (fun _ => hdue) fun _ h => nomatch h
  next call run howner =>
    have hdue := hs.due_of howner rfl
    split
    · exact hs
    next report hreport =>
      refine hs.of_owner nofun ?_
      rintro _ ⟨⟩
      exact .inl ⟨run.number, hdue, rfl, hreport⟩
  next job _ howner => exact hs.begin job
  next report howner =>
    have hempty : s.active = none := hkept.place (by rw [howner]; rfl)
    refine hs.answer nofun ?_ (by rw [Answer.due_waited, hempty]; rfl)
    rintro _ ⟨⟩
    exact hs.owed report howner
  next => exact hs.of_owner nofun fun _ h => nomatch h
  next run howner =>
    refine hs.answer ?_ (fun _ h => nomatch h) (Answer.due_started _ _)
    rintro _ ⟨⟩ k hk
    exact hkept.exists_report? (by rw [Hosting.charge, howner]) hk

theorem Told.act (hs : s.Told) (hkept : s.Kept) (a : Act) : (s.act a).Told := by
  cases a with
  | call c =>
    have hdue := hs.due
    simp only [Hosting.act]
    split
    next howner =>
      have hdue := hs.due_of howner rfl
      exact hs.of_owner (fun _ => hdue) fun _ h => nomatch h
    · exact hs
  | proceed seen => exact hs.proceed hkept seen
  | cancel | work | receive | stop | release | disconnect =>
    exact hs.of_quiet (quiet_act rfl)

end Hosting

end Labyrinth
