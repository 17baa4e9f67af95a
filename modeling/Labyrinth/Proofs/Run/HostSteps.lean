import Labyrinth.Run.Host
import Labyrinth.Proofs.Run.HostScenes

/-!
# Operations of a host as steps

What a host does at once is made of the steps of its owner, its workers and its readers. A host in
the middle of things shows a host whose runs are as its workers see them; every operation of that
host is some steps, with the same answer.
-/

namespace Labyrinth

/-- The reader of a run, if there is such a run, is there. -/
def Host.Present (h : Host) (number : Nat) : Prop :=
  ∀ r, h.runs[number]? = some r → r.abandoned = false

namespace Hosting

variable {s t : Hosting} {n : Nat} {read : Nat → List Event} {c : Config} {runs : List LiveRun}

/-! ## The operations -/

/-- A host in the middle of things shows a host whose owner is in no call. -/
structure Shows (s : Hosting) (h : Host) (read : Nat → List Event) : Prop where
  /-- It has the same runs. -/
  mirrors : Mirrors s h.config h.runs read
  /-- The owner is in no call. -/
  idle : s.owner = .idle
  /-- The same run is active. -/
  active : s.active.map (·.number) = h.active

variable {h : Host} {call : Call} {run : Charge}

/-- Steps that are not the owner's lead from a host shown to another. -/
theorem Shows.of_mirrors (hs : Shows s h read) {events : Nat → List Event} (hquiet : Quiet s t)
    (ht : Mirrors t h.config runs events) : Shows t { h with runs } events :=
  ⟨ht, hquiet.owner.trans hs.idle, hquiet.active ▸ hs.active⟩

theorem shows_create (c : Config) : Shows (create c) ⟨c, [], none⟩ fun _ => [] where
  mirrors :=
    { config := rfl
      length := rfl
      scene := fun n => by simp [scene?, create]
      hold := fun n => by simp [hold?, create]
      kept := kept_create c }
  idle := rfl
  active := rfl

theorem Shows.isStopped (hs : Shows s h read) (n : Nat) : s.isStopped n = h.isStopped n := by
  have hscene := congrArg (Option.any (·.run.stopped)) (hs.mirrors.scene n)
  simp only [scene?, Option.any_map] at hscene
  exact hscene

/-- The worker of a run moves. -/
theorem Shows.works (hs : Shows s h read) (n : Nat) {f : LiveRun → LiveRun}
    (hf : ∀ r received,
      Scene.Works h.config.eventBuffer (.ofRun r received) (.ofRun (f r) received)) :
    ∃ t, s.Leads t ∧ Shows t (h.onRun n f) read ∧ t.answers = s.answers := by
  obtain ⟨t, hlead, hquiet, ht⟩ := hs.mirrors.works n hf
  exact ⟨t, hlead, hs.of_mirrors hquiet ht, hquiet.answers⟩

/-- The worker of a run and its reader, who is there, do something. -/
theorem Shows.byReader (hs : Shows s h read) {f : LiveRun → LiveRun} {events : List Event}
    (hf : ∀ r, h.runs[n]? = some r → r.abandoned = false ∧
      Scene.Leads h.config.eventBuffer (.ofRun r (read n)) (.ofRun (f r) events)) :
    ∃ t, s.Leads t ∧ Shows t (h.onRun n f) (Function.update read n events) ∧
      t.answers = s.answers := by
  obtain ⟨t, hlead, hquiet, ht⟩ := hs.mirrors.onRun fun r hr => by
    obtain ⟨hpresent, acts, hacts⟩ := hf r hr
    exact ⟨acts, .inr hpresent, hacts⟩
  exact ⟨t, hlead, hs.of_mirrors hquiet ht, hquiet.answers⟩

theorem Shows.stop (hs : Shows s h read) (hpresent : h.Present n) :
    ∃ t, s.Leads t ∧ Shows t (h.stop n) read ∧ t.answers = s.answers := by
  have hreader := hs.byReader (n := n) fun r hr =>
    ⟨hpresent r hr, Scene.leads_stop h.config r (read n)⟩
  rwa [Function.update_eq_self] at hreader

theorem Shows.receive (hs : Shows s h read) (hpresent : h.Present n) :
    ∃ t, s.Leads t ∧ Shows t (h.receive n).2
      (Function.update read n (read n ++ (h.receive n).1.toList)) ∧ t.answers = s.answers := by
  rw [Host.receive, Host.takeFrom]
  cases hr : h.runs[n]? with
  | none =>
    simp only [Option.toList_none, List.append_nil, Function.update_eq_self]
    exact ⟨s, leads_refl s, hs, rfl⟩
  | some r =>
    refine hs.byReader fun r' hr' => ⟨hpresent r' hr', ?_⟩
    obtain rfl : r = r' := Option.some.inj (hr.symm.trans hr')
    exact Scene.leads_receive h.config r (read n)

theorem Shows.receiveRest (hs : Shows s h read) (hpresent : h.Present n) :
    ∃ t, s.Leads t ∧ Shows t (h.receiveRest n).2
      (Function.update read n (read n ++ (h.receiveRest n).1)) ∧ t.answers = s.answers := by
  rw [Host.receiveRest, Host.takeFrom]
  cases hr : h.runs[n]? with
  | none =>
    simp only [List.append_nil, Function.update_eq_self]
    exact ⟨s, leads_refl s, hs, rfl⟩
  | some r =>
    refine hs.byReader fun r' hr' => ⟨hpresent r' hr', ?_⟩
    obtain rfl : r = r' := Option.some.inj (hr.symm.trans hr')
    have hdrain := Scene.leads_drain h.config r [] (read n)
    rwa [List.reverse_nil, List.append_nil] at hdrain

theorem Shows.awaitFull (hs : Shows s h read) (n : Nat) :
    ∃ t, s.Leads t ∧ Shows t (h.awaitFull n) read ∧ t.answers = s.answers :=
  hs.works n fun r received => Scene.works_waitUntil h.config _ r received

theorem Shows.abandon (hs : Shows s h read) (hpresent : h.Present n) :
    ∃ t, s.Leads t ∧ Shows t (h.abandon n) read ∧ t.answers = s.answers := by
  obtain ⟨t, hst, hquiet, ht⟩ := hs.mirrors.leave hpresent
  obtain ⟨u, htu, hu, hanswers⟩ := (hs.of_mirrors hquiet ht).works n fun r received =>
    Scene.works_settle h.config r received
  refine ⟨u, hst.trans htu, ?_, hanswers.trans hquiet.answers⟩
  simp only [Host.onRun, List.modify_modify_eq] at hu
  exact hu

theorem Shows.collect (hs : Shows s h read) (hpresent : h.Present n) :
    ∃ t, s.Leads t ∧ Shows t (h.collect n).2
      (Function.update read n (read n ++ (h.collect n).1)) ∧ t.answers = s.answers := by
  obtain ⟨t, hst, ht, hread⟩ := hs.receiveRest hpresent
  have hstill : (h.receiveRest n).2.Present n := by
    rw [Host.receiveRest, Host.takeFrom]
    split
    next r hr =>
      intro r' hr'
      simp only [Host.onRun, List.getElem?_modify_eq, hr] at hr'
      obtain rfl := Option.some.inj hr'
      rw [← hpresent r hr]
      exact (Scene.leads_drain h.config r [] []).abandoned
    · exact hpresent
  obtain ⟨u, htu, hu, hanswers⟩ := ht.abandon hstill
  exact ⟨u, hst.trans htu, hu, hanswers.trans hread⟩

/-- The worker of a run whose signal went up moves on. -/
theorem Mirrors.settle (h : Mirrors s c (runs.modify n fun r => { r with stopped := true }) read) :
    ∃ t, s.Leads t ∧ Quiet s t ∧ Mirrors t c (runs.modify n (·.stop c)) read := by
  obtain ⟨t, hlead, hquiet, ht⟩ := h.works n fun r received => Scene.works_settle c r received
  rw [List.modify_modify_eq] at ht
  exact ⟨t, hlead, hquiet, ht⟩

/-- The owner raises the signal of the run that it keeps. -/
theorem Mirrors.raiseKept (h : Mirrors s c runs read) (hrun : run ∈ s.charge) :
    Mirrors (s.raise run.handle) c
      (runs.modify run.number fun r => { r with stopped := true }) read :=
  h.raise (h.kept.charge run hrun).1 (h.kept.lt_length hrun)

theorem Shows.stopActive (hs : Shows s h read) :
    ∃ t, s.Leads t ∧ Shows t h.stopActive read ∧ t.answers = s.answers := by
  have hactive := hs.active
  rw [Host.stopActive]
  cases hrun : s.active with
  | none =>
    rw [hrun] at hactive
    rw [← hactive]
    exact ⟨s, leads_refl s, hs, rfl⟩
  | some run =>
    rw [hrun] at hactive
    rw [← hactive]
    have hcharge : run ∈ s.charge := by rw [charge, hs.idle, hrun]; rfl
    obtain ⟨t, hlead, hquiet, ht⟩ := (hs.mirrors.raiseKept hcharge).settle
    have hact : s.act .cancel = s.raise run.handle := by simp [act, hs.idle, hrun]
    refine ⟨t, (hact ▸ s.leads_act .cancel).trans hlead, ?_, hquiet.answers⟩
    exact hs.of_mirrors ((quiet_raise s run.handle).trans hquiet) ht

/-! ## The calls of the owner -/

theorem modify_congr {f g : LiveRun → LiveRun} (hfg : ∀ r, runs[n]? = some r → f r = g r) :
    runs.modify n f = runs.modify n g := by
  apply List.ext_getElem?
  intro k
  rw [List.getElem?_modify, List.getElem?_modify]
  by_cases hk : n = k
  · subst hk
    simp only [if_true]
    exact Option.map_congr fun r hr => hfg r hr
  · simp [hk]

theorem modify_concat (x : LiveRun) (f : LiveRun → LiveRun) :
    (runs ++ [x]).modify runs.length f = runs ++ [f x] := by
  apply List.ext_getElem?
  intro k
  rw [List.getElem?_modify, getElem?_concat_eq, getElem?_concat_eq]
  by_cases hk : k = runs.length
  · simp [hk]
  · simp [hk, Ne.symm hk]

/-- The owner of a host in the middle of things goes on, without a part in its runs. -/
structure Goes (s t : Hosting) (owner : Owner) : Prop where
  /-- These steps lead there. -/
  leads : s.Leads t
  /-- The owner is there. -/
  owner : t.owner = owner
  /-- Nothing was answered. -/
  answers : t.answers = s.answers

theorem Goes.trans {u : Hosting} {owner owner' : Owner} (hst : Goes s t owner)
    (htu : Goes t u owner') : Goes s u owner' :=
  ⟨hst.leads.trans htu.leads, htu.owner, htu.answers.trans hst.answers⟩

/-- Steps of others leave the owner where it is. -/
theorem Goes.of_quiet {owner : Owner} (hlead : s.Leads t) (hquiet : Quiet s t)
    (howner : s.owner = owner) : Goes s t owner :=
  ⟨hlead, hquiet.owner.trans howner, hquiet.answers⟩

/-- The owner goes on, and its workers and readers wait. -/
theorem Mirrors.goes (h : Mirrors s c runs read) (a : Act) (owner : Owner)
    (active : Option Charge) (hact : s.act a = { s with owner, active }) :
    ∃ t, Goes s t owner ∧ t.active = active ∧ Mirrors t c runs read := by
  have hkept := h.kept.act a
  have hlead := s.leads_act a
  rw [hact] at hkept hlead
  exact ⟨_, ⟨hlead, rfl, rfl⟩, rfl, h.of_owner hkept⟩

/-- A run at its end need not be waited for. -/
theorem Mirrors.join (h : Mirrors s c runs read) (howner : s.owner = .joining call run)
    {r : LiveRun} (hr : runs[run.number]? = some r) (hover : r.isOver = true) :
    ∃ t, Goes s t (.vacant call r.report?) ∧ Mirrors t c runs read := by
  obtain ⟨report, hreport⟩ := Option.isSome_iff_exists.mp hover
  have hsame : s.report? run.number = some report := by
    rw [h.report?, hr, Option.bind_some, hreport]
  obtain ⟨t, hgoes, -, ht⟩ := h.goes (.proceed true) (.vacant call (some report)) s.active
    (by simp [act, Hosting.proceed, howner, hsame])
  rw [hreport]
  exact ⟨t, hgoes, ht⟩

/-- The run that the owner keeps is one of those mirrored. -/
theorem Mirrors.exists_kept (h : Mirrors s c runs read) (hrun : run ∈ s.charge) :
    ∃ r, runs[run.number]? = some r := by
  have hn : run.number < runs.length := by
    rw [← h.length]
    exact h.kept.lt_length hrun
  exact ⟨_, List.getElem?_eq_getElem hn⟩

/-- The owner raises the signal of a run, and waits for its end. -/
theorem Mirrors.stopRaising (h : Mirrors s c runs read) (howner : s.owner = .raising call run)
    {r : LiveRun} (hr : runs[run.number]? = some r) :
    ∃ t, Goes s t (.vacant call (r.stop c).report?) ∧
      Mirrors t c (runs.modify run.number (·.stop c)) read := by
  have hact : s.act (.proceed true) = { s.raise run.handle with owner := .joining call run } := by
    simp [act, Hosting.proceed, howner]
  have ht : Mirrors (s.act (.proceed true)) c
      (runs.modify run.number fun r => { r with stopped := true }) read := by
    have hkept := h.kept.act (.proceed true)
    rw [hact] at hkept ⊢
    exact (h.raiseKept (by rw [charge, howner]; rfl)).of_owner hkept
  have hst : Goes s (s.act (.proceed true)) (.joining call run) :=
    ⟨s.leads_act _, by rw [hact], by rw [hact]; rfl⟩
  obtain ⟨u, htu, hquiet, hu⟩ := ht.settle
  obtain ⟨v, huv, hv⟩ := hu.join (r := r.stop c) (hquiet.owner.trans hst.owner)
    (by rw [List.getElem?_modify_eq, hr]; rfl) (LiveRun.isOver_stop c r)
  exact ⟨v, (hst.trans (.of_quiet htu hquiet hst.owner)).trans huv, hv⟩

/-- The run that the owner has found is stopped unless it is at its end, which is waited for. -/
theorem Mirrors.stopFound (h : Mirrors s c runs read) (howner : s.owner = .checking call run) :
    ∃ t last, Goes s t (.vacant call last) ∧
      Mirrors t c (runs.modify run.number (·.stopUnlessOver c)) read := by
  obtain ⟨r, hr⟩ := h.exists_kept (by rw [charge, howner]; rfl)
  have hreport : s.report? run.number = r.report? := by rw [h.report?, hr, Option.bind_some]
  have hsame (r' : LiveRun) (hr' : runs[run.number]? = some r') : r' = r :=
    Option.some.inj (hr'.symm.trans hr)
  cases hover : r.isOver with
  | true =>
    have hmodify : runs.modify run.number (·.stopUnlessOver c) = runs := by
      rw [modify_congr (g := id) fun r' hr' => by
        rw [hsame r' hr', LiveRun.stopUnlessOver, if_pos hover, id_eq]]
      exact List.modify_id ..
    have hsome : r.report?.isSome = true := hover
    obtain ⟨t, hst, -, ht⟩ := h.goes (.proceed true) (.joining call run) s.active
      (by simp [act, Hosting.proceed, howner, hreport, hsome])
    obtain ⟨u, htu, hu⟩ := ht.join hst.owner hr hover
    rw [hmodify]
    exact ⟨u, _, hst.trans htu, hu⟩
  | false =>
    have hmodify : runs.modify run.number (·.stopUnlessOver c) =
        runs.modify run.number (·.stop c) :=
      modify_congr fun r' hr' => by
        rw [hsame r' hr', LiveRun.stopUnlessOver, hover, if_neg Bool.false_ne_true]
    have hnone : r.report? = none := by simpa [LiveRun.isOver] using hover
    obtain ⟨t, hst, -, ht⟩ := h.goes (.proceed true) (.raising call run) s.active
      (by simp [act, Hosting.proceed, howner, hreport, hnone])
    obtain ⟨u, htu, hu⟩ := ht.stopRaising hst.owner hr
    rw [hmodify]
    exact ⟨u, _, hst.trans htu, hu⟩

/-- A call empties the place of the active run. -/
theorem Shows.calls (hs : Shows s h read) (call : Call) :
    ∃ t, Goes s t (.emptying call) ∧ t.active = s.active ∧ Mirrors t h.config h.runs read :=
  hs.mirrors.goes (.call call) _ _ (by simp only [act, hs.idle])

/-- A call that stops the active run, if there is one, comes to the end of it. -/
theorem Shows.retire (hs : Shows s h read) (call : Call) (hstops : call.stops = true) :
    ∃ t last, Goes s t (.vacant call last) ∧ Mirrors t h.config h.retire.runs read := by
  obtain ⟨t, hst, hactive, ht⟩ := hs.calls call
  have hshown := hs.active
  rw [← hactive] at hshown
  rw [Host.retire]
  cases hrun : t.active with
  | none =>
    rw [hrun] at hshown
    obtain ⟨u, htu, -, hu⟩ := ht.goes (.proceed true) (.vacant call none) none
      (by simp [act, Hosting.proceed, hst.owner, hrun])
    rw [← hshown]
    exact ⟨u, none, hst.trans htu, hu⟩
  | some run =>
    rw [hrun] at hshown
    obtain ⟨u, htu, -, hu⟩ := ht.goes (.proceed true) (.checking call run) none
      (by simp [act, Hosting.proceed, hst.owner, hrun, hstops])
    obtain ⟨v, last, huv, hv⟩ := hu.stopFound htu.owner
    rw [← hshown]
    exact ⟨v, last, (hst.trans htu).trans huv, hv⟩

/-- To give the host up is to retire the active run; there are no more calls then. -/
theorem Shows.leave (hs : Shows s h read) :
    ∃ t, Goes s t .gone ∧ Mirrors t h.config h.retire.runs read := by
  obtain ⟨t, last, hst, ht⟩ := hs.retire .leave rfl
  obtain ⟨u, htu, -, hu⟩ := ht.goes (.proceed true) .gone t.active
    (by simp [act, Hosting.proceed, hst.owner])
  exact ⟨u, hst.trans htu, hu⟩

theorem config_retire (h : Host) : h.retire.config = h.config := by
  rw [Host.retire]
  split <;> rfl

/-- A start is the steps of its call, and then those of the new worker up to where it waits. -/
theorem Shows.start (hs : Shows s h read) (job : Job) :
    ∃ t, s.Leads t ∧
      Shows t (h.start job.program job.maze job.player).2
        (Function.update read h.retire.runs.length []) ∧
      t.answers = s.answers ++ [.started (h.start job.program job.maze job.player).1] := by
  obtain ⟨t, last, hst, ht⟩ := hs.retire (.start job) rfl
  have hbegin : t.act (.proceed true) = t.begin job := by simp [act, Hosting.proceed, hst.owner]
  have hbegun := ht.begin hst.owner
  have hnumber : t.runs.length = h.retire.runs.length := ht.length
  -- The run that has begun is put in its place, and its number is given out.
  have hgiven : Mirrors ((t.begin job).act (.proceed true)) h.config
      (h.retire.runs ++ [job.run h.config.maxDepth])
      (Function.update read h.retire.runs.length []) :=
    hbegun.of_owner (hbegun.kept.act (.proceed true))
  obtain ⟨u, hlead, hquiet, hu⟩ := hgiven.works h.retire.runs.length fun r received =>
    Scene.works_settle h.config r received
  rw [modify_concat] at hu
  have hstart : h.start job.program job.maze job.player = (h.retire.runs.length,
      ⟨h.config, h.retire.runs ++ [(job.run h.config.maxDepth).settle h.config],
        some h.retire.runs.length⟩) := by
    simp only [Host.start, config_retire]
    rfl
  rw [hstart]
  refine ⟨u, hst.leads.trans ?_, ⟨hu, hquiet.owner, ?_⟩, ?_⟩
  · exact (hbegin ▸ t.leads_act (.proceed true)).trans (((t.begin job).leads_act _).trans hlead)
  · rw [hquiet.active, ← hnumber]
    rfl
  · rw [hquiet.answers, ← hnumber, ← hst.answers]
    rfl

theorem wait_of_idle (hactive : h.active = none) :
    h.wait = (none, ⟨h.config, h.runs, none⟩) := by
  obtain ⟨c, runs, active⟩ := h
  obtain rfl : active = none := hactive
  rfl

theorem wait_of_active (hactive : h.active = some n) {r : LiveRun} (hr : h.runs[n]? = some r) :
    h.wait = ((r.join h.config).report?,
      ⟨h.config, h.runs.modify n (·.join h.config), none⟩) := by
  have hmodify : h.runs.modify n (fun _ => r.join h.config) = h.runs.modify n (·.join h.config) :=
    modify_congr fun r' hr' => by rw [Option.some.inj (hr'.symm.trans hr)]
  simp only [Host.wait, hactive, Host.takeFrom, hr, Host.onRun, hmodify]

/-- A wait is answered, and no run is active. -/
theorem Mirrors.answer (h : Mirrors s c runs read) {report : Option Report}
    (howner : s.owner = .vacant .wait report) :
    ∃ t, s.Leads t ∧ Shows t ⟨c, runs, none⟩ read ∧ t.answers = s.answers ++ [.waited report] := by
  have hact : s.act (.proceed true) =
      { s with owner := .idle, answers := s.answers ++ [.waited report] } := by
    simp [act, Hosting.proceed, howner]
  have hempty : s.active = none := h.kept.place (by rw [howner]; rfl)
  have hkept := h.kept.act (.proceed true)
  have hlead := s.leads_act (.proceed true)
  rw [hact] at hkept hlead
  exact ⟨_, hlead, ⟨h.of_owner hkept, rfl, congrArg (Option.map Charge.number) hempty⟩, rfl⟩

/-- A wait is the steps of its call among those of the worker for which it waits, if that comes to
its end. -/
theorem Shows.wait (hs : Shows s h read)
    (hends : h.active.isSome = true → h.wait.1.isSome = true) :
    ∃ t, s.Leads t ∧ Shows t h.wait.2 read ∧ t.answers = s.answers ++ [.waited h.wait.1] := by
  obtain ⟨t, hst, hactive, ht⟩ := hs.calls .wait
  have hshown := hs.active
  -- Once the owner has the answer, it gives it.
  have hgiven {u : Hosting} {runs : List LiveRun} {report : Option Report}
      (htu : Goes t u (.vacant .wait report)) (hu : Mirrors u h.config runs read) :
      ∃ v, s.Leads v ∧ Shows v ⟨h.config, runs, none⟩ read ∧
        v.answers = s.answers ++ [.waited report] := by
    obtain ⟨v, huv, hv, hanswers⟩ := hu.answer htu.owner
    exact ⟨v, (hst.trans htu).leads.trans huv, hv, by rw [hanswers, (hst.trans htu).answers]⟩
  rw [← hactive] at hshown
  cases hrun : t.active with
  | none =>
    rw [hrun] at hshown
    rw [wait_of_idle hshown.symm]
    obtain ⟨u, htu, -, hu⟩ := ht.goes (.proceed true) (.vacant .wait none) none
      (by simp [act, Hosting.proceed, hst.owner, hrun])
    exact hgiven htu hu
  | some run =>
    rw [hrun] at hshown
    obtain ⟨u, htu, -, hu⟩ := ht.goes (.proceed true) (.joining .wait run) none
      (by simp [act, Hosting.proceed, hst.owner, hrun, Call.stops])
    obtain ⟨r, hr⟩ := hu.exists_kept (by rw [charge, htu.owner]; rfl)
    rw [wait_of_active hshown.symm hr] at hends ⊢
    obtain ⟨v, huv, hquiet, hv⟩ := hu.works run.number fun r received =>
      Scene.works_waitUntil h.config LiveRun.isOver r received
    obtain ⟨w, hvw, hw⟩ := hv.join (r := r.join h.config) (hquiet.owner.trans htu.owner)
      (by rw [List.getElem?_modify_eq, hr]; rfl) (hends (hshown ▸ rfl))
    exact hgiven ((htu.trans (.of_quiet huv hquiet htu.owner)).trans hvw) hw

end Hosting

end Labyrinth
