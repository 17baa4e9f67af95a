import Labyrinth.Proofs.Run.Keeping

/-!
# One run at a time

A stop signal is raised by the reader of its run or by the owner of the host while the run is the
one it keeps (`Hosting.isStopped_act`), so what becomes of the readers of earlier runs is nothing to
a later one: as long as its signal is down it carries its stream on, and its end is that of the
whole stream. With what the owner keeps and is answered, this is `Hosting.one_run_at_a_time`.
-/

namespace Labyrinth

namespace Hosting

variable {s t : Hosting} {a : Act} {n k handle : Nat} {r : HostedRun} {report : Report} {job : Job}

/-- The run whose reader does it. -/
def Act.reader? : Act → Option Nat
  | .receive n | .stop n | .release n | .disconnect n => some n
  | .call _ | .cancel | .proceed _ | .work _ => none

/-- Who may raise the stop signal of a run. -/
inductive Raises (s : Hosting) (n : Nat) : Act → Prop
  /-- Its reader stops it. -/
  | stop : Raises s n (.stop n)
  /-- Its reader begins to leave. -/
  | release : Raises s n (.release n)
  /-- The owner stops the active run. -/
  | cancel {run : Charge} (howner : s.owner = .idle) (hactive : s.active = some run)
    (hn : run.number = n) : Raises s n .cancel
  /-- The owner stops the run that it found when it called. -/
  | proceed {call : Call} {run : Charge} (seen : Bool) (howner : s.owner = .raising call run)
    (hn : run.number = n) : Raises s n (.proceed seen)

/-! ## Runs whose signal is down -/

/-- The run has its reader, and its worker is in the stream, as if nothing could stop it. -/
structure Carries (c : Config) (r : HostedRun) : Prop where
  /-- The reader has not begun to leave. -/
  hold : r.hold = .held
  /-- No signal was seen. -/
  down : r.scene.run.stopped = false
  /-- The worker stands in the stream. -/
  sound : Scene.Sound (r.job.machine c.maxDepth) c.eventBuffer r.scene

/-- Every run whose signal is down carries on. -/
def Carried (s : Hosting) : Prop :=
  ∀ (n : Nat) (r : HostedRun), s.runs[n]? = some r → s.board.isUp r.worker = false →
    Carries s.config r

theorem carries_begin (job : Job) (c : Config) (worker reader : Nat) :
    Carries c ⟨job, .ofRun (job.run c.maxDepth) [], worker, reader, .held⟩ :=
  ⟨rfl, rfl, Scene.sound_ofRun rfl (.following (Courier.tracks_ofMachine rfl)) fun _ _ =>
    Nat.zero_le _⟩

/-- What the worker does next, with its signal down, it would do whatever the readers of other runs
are about. -/
theorem Carries.work {c : Config} (h : Carries c r) :
    Carries c { r with scene := (r.scene.withSignal false).work c.eventBuffer } := by
  have hsame : r.scene.withSignal false = r.scene := by
    rw [Scene.withSignal, ← h.down]
  rw [hsame]
  exact ⟨h.hold, h.sound.stopped_work h.down, h.sound.work rfl⟩

/-- At its end such a run has sent the whole stream, and has the summary of it. -/
theorem Carries.whole {c : Config} (h : Carries c r) (hreport : r.scene.run.report? = some report) :
    (r.scene.sent, report) = r.job.whole c.maxDepth := by
  obtain ⟨r₀, hr₀, hwhole⟩ :=
    Run.collect_eq c.maxDepth r.job.program r.job.maze r.job.player
  rw [Job.whole, hwhole]
  have hclosed := h.sound.stands.closed_inv (Scene.stage_of_report? hreport)
  rcases hclosed with ⟨hsent, hsummary⟩ | ⟨hup, -⟩
  · rw [hsent, Option.some.inj (hsummary.symm.trans hr₀)]
    rfl
  · rw [h.down] at hup
    cases hup

theorem Carried.raise (hs : s.Carried) (handle : Nat) : (s.raise handle).Carried := by
  intro n r hr hdown
  refine hs n r hr ?_
  rw [← Bool.not_eq_true] at hdown ⊢
  exact fun hup => hdown (SignalBoard.isUp_raise_of_isUp hup handle)

theorem Carried.onRun (hs : s.Carried) {f : HostedRun → HostedRun}
    (hworker : ∀ r, s.runs[n]? = some r → (f r).worker = r.worker)
    (hf : ∀ r, s.runs[n]? = some r → s.board.isUp r.worker = false → Carries s.config r →
      Carries s.config (f r)) :
    (s.onRun n f).Carried := by
  intro k r' hr' hdown
  simp only [Hosting.onRun, List.getElem?_modify] at hr' hdown
  split at hr'
  next hk =>
    subst hk
    obtain ⟨r, hr, rfl⟩ := Option.map_eq_some_iff.mp hr'
    rw [hworker r hr] at hdown
    exact hf r hr hdown (hs n r hr hdown)
  · rw [id_map'] at hr'
    exact hs k r' hr' hdown

theorem Carried.work (hs : s.Carried) (n : Nat) : (s.work n).Carried := by
  rw [Hosting.work]
  split
  · exact hs
  next r hr =>
    have hrun : (s.onRun n fun r' =>
        { r' with
          scene := (r.scene.withSignal (s.board.isUp r.worker)).work
            s.config.eventBuffer }).Carried := by
      refine hs.onRun (fun _ _ => rfl) fun r' hr' hdown h => ?_
      obtain rfl : r = r' := Option.some.inj (hr.symm.trans hr')
      rw [hdown]
      exact h.work
    simp only
    split
    · exact hrun.raise _
    · exact hrun

theorem Carried.begin (hs : s.Carried) (hkept : s.Kept) (job : Job) : (s.begin job).Carried := by
  intro n r hr hdown
  obtain hold | ⟨rfl, rfl⟩ := getElem?_runs_begin hr
  · exact hs n r hold (isUp_begin hkept hold job ▸ hdown)
  · exact carries_begin ..

theorem Carried.proceed (hs : s.Carried) (hkept : s.Kept) (seen : Bool) :
    (s.proceed seen).Carried := by
  simp only [Hosting.proceed]
  split
  next => exact hs
  next => exact hs
  next => split <;> exact hs
  next => exact hs
  next call run howner => exact hs.raise run.handle
  next => split <;> exact hs
  next job _ howner => exact hs.begin hkept job
  next => exact hs
  next => exact hs
  next => exact hs

theorem carried_byReader {f : HostedRun → Hosting} (hs : s.Carried)
    (hf : ∀ r, s.runs[n]? = some r → (f r).Carried) : (s.byReader n f).Carried := by
  rw [byReader]
  split
  · exact hs
  next r hr =>
    split
    · exact hf r hr
    · exact hs

/-- A reader that leaves does so with the signal up. -/
theorem isUp_raise_reader (hkept : s.Kept) (hr : s.runs[n]? = some r) :
    (s.raise r.reader).board.isUp r.worker = true := by
  obtain ⟨hworker, hreader⟩ := hkept.handles n r hr
  have hn : n < s.board.raised.length := hkept.signals ▸ (List.getElem?_eq_some_iff.mp hr).1
  simp [Hosting.raise, SignalBoard.isUp_raise hreader hworker hn]

theorem Carried.act (hs : s.Carried) (hkept : s.Kept) (a : Act) : (s.act a).Carried := by
  cases a with
  | call c =>
    simp only [Hosting.act]
    split <;> exact hs
  | cancel =>
    simp only [Hosting.act]
    split
    · exact hs.raise _
    · exact hs
  | proceed seen => exact hs.proceed hkept seen
  | work n => exact hs.work n
  | receive n =>
    refine carried_byReader hs fun _ _ => hs.onRun (fun _ _ => rfl) fun r _ _ h => ?_
    refine ⟨h.hold, ?_, h.sound.receive⟩
    rw [Scene.receive]
    split <;> exact h.down
  | stop n => exact carried_byReader hs fun r _ => hs.raise r.reader
  | release n =>
    refine carried_byReader hs fun r hr => (hs.raise r.reader).onRun (fun _ _ => rfl) ?_
    intro r' hr' hdown
    obtain rfl : r = r' := Option.some.inj (hr.symm.trans hr')
    rw [isUp_raise_reader hkept hr] at hdown
    cases hdown
  | disconnect n =>
    refine hs.onRun (fun r _ => by split <;> rfl) fun r _ _ h => ?_
    rw [if_neg (by rw [h.hold]; decide)]
    exact h

/-! ## Who raises a signal -/

theorem isStopped_iff :
    s.isStopped n = true ↔ ∃ r, s.runs[n]? = some r ∧ s.board.isUp r.worker = true :=
  Option.any_eq_true _ _

/-- Raising a signal changes nothing for the runs that have another. -/
theorem isStopped_raise_of_ne (hkept : s.Kept) (hon : s.board.On handle n) (hn : n < s.runs.length)
    (hk : k ≠ n) : (s.raise handle).isStopped k = s.isStopped k := by
  simp only [isStopped, Hosting.raise]
  cases hr : s.runs[k]? with
  | none => rfl
  | some r =>
    have hup := SignalBoard.isUp_raise hon (hkept.handles k r hr).1 (hkept.signals ▸ hn)
    simpa [hk] using hup

theorem isStopped_onRun {f : HostedRun → HostedRun} (hf : ∀ r, (f r).worker = r.worker) :
    (s.onRun n f).isStopped k = s.isStopped k := by
  simp only [isStopped, Hosting.onRun, List.getElem?_modify]
  cases s.runs[k]? with
  | none => rfl
  | some r => by_cases hk : n = k <;> simp [hk, hf]

theorem isStopped_begin (hkept : s.Kept) (h : (s.begin job).isStopped k = true) :
    s.isStopped k = true := by
  obtain ⟨r, hr, hup⟩ := isStopped_iff.mp h
  obtain hold | ⟨rfl, rfl⟩ := getElem?_runs_begin hr
  · exact isStopped_iff.mpr ⟨r, hold, isUp_begin hkept hold job ▸ hup⟩
  · rw [isUp_begin_self] at hup
    cases hup

/-- What the reader of a run does is nothing to other runs. -/
theorem unchanged_of_reader (hkept : s.Kept) (ha : a.reader? = some n) (hk : k ≠ n) :
    (s.act a).runs[k]? = s.runs[k]? ∧ (s.act a).isStopped k = s.isStopped k := by
  have hreader {f : HostedRun → Hosting} (hf : ∀ r, s.runs[n]? = some r →
      (f r).runs[k]? = s.runs[k]? ∧ (f r).isStopped k = s.isStopped k) :
      (s.byReader n f).runs[k]? = s.runs[k]? ∧ (s.byReader n f).isStopped k = s.isStopped k := by
    rw [byReader]
    split
    · exact ⟨rfl, rfl⟩
    next r hr =>
      split
      · exact hf r hr
      · exact ⟨rfl, rfl⟩
  have hrun (s : Hosting) (f : HostedRun → HostedRun) : (s.onRun n f).runs[k]? = s.runs[k]? := by
    simp [Hosting.onRun, Ne.symm hk]
  have hraise {r : HostedRun} (hr : s.runs[n]? = some r) :
      (s.raise r.reader).isStopped k = s.isStopped k :=
    isStopped_raise_of_ne hkept (hkept.handles n r hr).2 (List.getElem?_eq_some_iff.mp hr).1 hk
  cases a with
  | call | cancel | proceed | work => cases ha
  | receive =>
    cases ha
    exact hreader fun _ _ => ⟨hrun _ _, isStopped_onRun fun _ => rfl⟩
  | stop =>
    cases ha
    exact hreader fun _ hr => ⟨rfl, hraise hr⟩
  | release =>
    cases ha
    refine hreader fun r hr => ⟨hrun _ _, ?_⟩
    rw [isStopped_onRun, hraise hr]
    exact fun _ => rfl
  | disconnect =>
    cases ha
    exact ⟨hrun _ _, isStopped_onRun fun r => by split <;> rfl⟩

/-- The owner raises the signal of the run that it keeps, and no other. -/
theorem Kept.isStopped_raise (hkept : s.Kept) {run : Charge} (hrun : run ∈ s.charge)
    (ha : s.Raises run.number a) (h : (s.raise run.handle).isStopped k = true) :
    s.isStopped k = true ∨ s.Raises k a := by
  by_cases hk : k = run.number
  · exact .inr (hk ▸ ha)
  · have hon := (hkept.charge run hrun).1
    exact .inl (isStopped_raise_of_ne hkept hon (hkept.lt_length hrun) hk ▸ h)

theorem isStopped_work (hkept : s.Kept) (hcarried : s.Carried)
    (h : (s.work n).isStopped k = true) : s.isStopped k = true := by
  rw [work] at h
  split at h
  · exact h
  next r hr =>
    have hsame (t : Hosting) (scene : Scene) :
        (t.onRun n fun r => { r with scene := scene }).isStopped k = t.isStopped k :=
      isStopped_onRun fun _ => rfl
    simp only at h
    split at h
    next hstopped =>
      have hup : s.board.isUp r.worker = true := by
        cases hdown : s.board.isUp r.worker with
        | true => rfl
        | false =>
          rw [hdown, (hcarried n r hr hdown).work.down] at hstopped
          cases hstopped
      by_cases hk : k = n
      · exact isStopped_iff.mpr ⟨r, hk ▸ hr, hup⟩
      · have hn := (List.getElem?_eq_some_iff.mp hr).1
        have hraise := (hsame (s.raise r.worker) _).symm.trans h
        rwa [isStopped_raise_of_ne hkept (hkept.handles n r hr).1 hn hk] at hraise
    · rwa [hsame] at h

/-- A signal that is up was up before, or one of those who may raise it did. -/
theorem isStopped_act (hkept : s.Kept) (hcarried : s.Carried) (a : Act)
    (h : (s.act a).isStopped k = true) : s.isStopped k = true ∨ s.Raises k a := by
  cases a with
  | call c =>
    simp only [act] at h
    split at h <;> exact .inl h
  | cancel =>
    simp only [act] at h
    split at h
    next run howner hactive =>
      have hrun : run ∈ s.charge := by rw [charge, howner, hactive]; rfl
      exact hkept.isStopped_raise hrun (.cancel howner hactive rfl) h
    · exact .inl h
  | proceed seen =>
    simp only [act, proceed] at h
    split at h
    next => exact .inl h
    next => exact .inl h
    next => split at h <;> exact .inl h
    next => exact .inl h
    next call run howner =>
      have hrun : run ∈ s.charge := by rw [charge, howner]; rfl
      exact hkept.isStopped_raise hrun (.proceed seen howner rfl) h
    next => split at h <;> exact .inl h
    next => exact .inl (isStopped_begin hkept h)
    next => exact .inl h
    next => exact .inl h
    next => exact .inl h
  | work n => exact .inl (isStopped_work hkept hcarried h)
  | receive n =>
    simp only [act, byReader] at h
    split at h
    · exact .inl h
    · split at h
      · rw [isStopped_onRun] at h
        · exact .inl h
        · exact fun _ => rfl
      · exact .inl h
  | disconnect n => exact .inl ((isStopped_onRun fun r => by split <;> rfl).symm.trans h)
  | stop n =>
    by_cases hk : k = n
    · exact .inr (hk ▸ .stop)
    · exact .inl ((unchanged_of_reader (a := .stop n) hkept rfl hk).2.symm.trans h)
  | release n =>
    by_cases hk : k = n
    · exact .inr (hk ▸ .release)
    · exact .inl ((unchanged_of_reader (a := .release n) hkept rfl hk).2.symm.trans h)

/-! ## Any order of steps -/

/-- What holds of a host in the middle of things, whatever has happened. -/
structure Sound (s : Hosting) : Prop where
  /-- The owner keeps the run that may be working. -/
  kept : s.Kept
  /-- What it was answered is right. -/
  told : s.Told
  /-- Runs whose signal is down carry on. -/
  carried : s.Carried

theorem sound_create (c : Config) : (create c).Sound where
  kept := kept_create c
  told := told_create c
  carried n r hr := by simp [create] at hr

theorem config_act (s : Hosting) (a : Act) : (s.act a).config = s.config := by
  cases a with
  | call c =>
    simp only [act]
    split <;> rfl
  | proceed seen =>
    simp only [act, proceed]
    split
    all_goals first | rfl | (split <;> rfl)
  | cancel | work | receive | stop | release | disconnect =>
    exact Quiet.config (quiet_act rfl)

theorem Sound.act (hs : s.Sound) (a : Act) : (s.act a).Sound :=
  ⟨hs.kept.act a, hs.told.act hs.kept a, hs.carried.act hs.kept a⟩

theorem Sound.perform (hs : s.Sound) (acts : List Act) : (s.perform acts).Sound := by
  induction acts generalizing s with
  | nil => exact hs
  | cons a acts ih => exact ih (hs.act a)

theorem config_perform (s : Hosting) (acts : List Act) : (s.perform acts).config = s.config := by
  induction acts generalizing s with
  | nil => rfl
  | cons a acts ih => exact (ih (s.act a)).trans (config_act s a)

/-- Whatever the owner calls and readers do, in any order with the steps of the workers: at most one
worker is working, and when a run has been started all before it are at their ends. What a reader
does changes nothing in other runs and leaves their signals as they are; a signal goes up through
its run's own reader or through the owner, while the run is the one it keeps; and a run that comes
to its end with its signal down has sent its whole stream. A wait is answered with the summary of
the run started last, if there was no wait since, and otherwise with nothing. -/
theorem one_run_at_a_time (c : Config) (acts : List Act) :
    let s := (create c).perform acts
    (∀ m n, s.isWorking m = true → s.isWorking n = true → m = n) ∧
    (∀ n, .started n ∈ s.answers → ∀ m < n, s.isWorking m = false) ∧
    (∀ a m n, a.reader? = some m → n ≠ m →
      (s.act a).runs[n]? = s.runs[n]? ∧ (s.act a).isStopped n = s.isStopped n) ∧
    (∀ a n, s.isStopped n = false → (s.act a).isStopped n = true → s.Raises n a) ∧
    (∀ n r report, s.runs[n]? = some r → r.scene.run.report? = some report →
      s.isStopped n = false → (r.scene.sent, report) = r.job.whole c.maxDepth) ∧
    (∀ before report after, s.answers = before ++ .waited report :: after →
      s.Owes before report) := by
  intro s
  have hs : s.Sound := (sound_create c).perform acts
  have hconfig : s.config = c := config_perform _ acts
  refine ⟨?_, ?_, ?_, ?_, ?_, hs.told.waited⟩
  · intro m n hm hn
    obtain ⟨run, hrun, rfl⟩ := hs.kept.working m hm
    obtain ⟨run', hrun', rfl⟩ := hs.kept.working n hn
    rw [Option.mem_def.mp hrun] at hrun'
    cases hrun'
    rfl
  · intro n hn m hm
    obtain ⟨report, hreport⟩ := hs.told.started n hn m hm
    rw [← Bool.not_eq_true, isWorking_iff, hreport]
    exact fun h => nomatch h.2
  · exact fun a m n ha hn => unchanged_of_reader hs.kept ha hn
  · intro a n hdown hup
    obtain hstill | hraises := isStopped_act hs.kept hs.carried a hup
    · rw [hdown] at hstill
      cases hstill
    · exact hraises
  · intro n r report hr hreport hdown
    have hcarries : Carries s.config r := by
      refine hs.carried n r hr ?_
      rw [← Bool.not_eq_true] at hdown ⊢
      exact fun hup => hdown (isStopped_iff.mpr ⟨r, hr, hup⟩)
    rw [← hconfig]
    exact hcarries.whole hreport

/-- A run is superseded, and its reader stops it once more: the later run sends its whole stream,
and the owner waits for its summary. -/
theorem one_run_at_a_time_of_stale_stop :
    let maze : Maze := ⟨.blank 3 1, Layout.fault?_eq_none_iff.mp (by decide)⟩
    let job : Job := ⟨[.move .right], maze, ⟨⟨0, 0⟩, 0, ⟨0, 0⟩⟩⟩
    let start : List Act := [.call (.start job), .proceed true, .proceed true, .proceed true]
    let supersede : List Act := [.call (.start job), .proceed true, .proceed false, .proceed true,
      .work 0, .work 0, .work 0, .work 0, .proceed true, .proceed true, .proceed true]
    let wait : List Act := [.call .wait, .proceed true, .proceed true, .proceed true]
    let s := (create .instant).perform
      (start ++ supersede ++ .stop 0 :: List.replicate 12 (.work 1) ++ wait)
    s.answers = [.started 0, .started 1, .waited (s.report? 1)] ∧ s.isWorking 0 = false ∧
      s.isStopped 0 = true ∧ ∃ r report, s.runs[1]? = some r ∧
        r.scene.run.report? = some report ∧ (r.scene.sent, report) = r.job.whole 64 := by
  intro maze job start supersede wait s
  obtain ⟨-, hstarted, -, -, hwhole, hwaited⟩ := one_run_at_a_time .instant
    (start ++ supersede ++ .stop 0 :: List.replicate 12 (.work 1) ++ wait)
  have hanswers : s.answers = [.started 0, .started 1, .waited (s.report? 1)] := by decide
  refine ⟨hanswers, hstarted 1 ?_ 0 Nat.zero_lt_one, by decide, ?_⟩
  · rw [hanswers]
    simp
  · obtain ⟨n, hdue, hsome, -⟩ | ⟨hdue, -⟩ := hwaited [.started 0, .started 1] _ [] hanswers
    · obtain ⟨report, hreport⟩ := Option.isSome_iff_exists.mp hsome
      obtain ⟨r, hr, hend⟩ := Option.bind_eq_some_iff.mp hreport
      exact ⟨r, report, hr, hend, hwhole 1 r report hr hend (by decide)⟩
    · cases hdue

end Hosting

end Labyrinth
