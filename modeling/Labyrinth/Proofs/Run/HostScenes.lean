import Mathlib.Logic.Function.Basic
import Labyrinth.Proofs.Run.LiveSteps
import Labyrinth.Proofs.Run.Keeping

/-!
# The live runs of a host

Each worker of a host in the middle of things sees a scene of its own: the run with its stop signal
up or not. Steps of that scene are steps of the host (`Hosting.plays_perform`), and nothing else
changes. So a host in the middle of things mirrors live runs (`Hosting.Mirrors`), one for each of
its runs, through all that happens to one of them, until another begins.
-/

namespace Labyrinth

namespace Scene

variable {buffer : Option Nat}

/-- The worker leaves the signal up. -/
theorem stopped_work {x : Scene} (hup : x.run.stopped = true) :
    (x.work buffer).run.stopped = true := by
  have htry (e : Event) : (x.run.trySend buffer e).2.stopped = true :=
    (LiveRun.stopped_trySend buffer x.run e).trans hup
  unfold work
  split
  · exact hup
  · exact hup
  · unfold send
    split
    · exact hup
    · exact hup
    · split
      next r hr =>
        have hstopped := htry ‹_›
        rw [hr] at hstopped
        exact hstopped
      · exact hup
    · rfl
  · exact hup
  · exact htry _

theorem abandoned_act (x : Scene) (a : Act) : (x.act buffer a).run.abandoned = x.run.abandoned := by
  have htry := LiveRun.abandoned_trySend buffer x.run
  cases a with
  | stop => rfl
  | receive =>
    simp only [act, receive]
    split <;> rfl
  | work =>
    simp only [act, work]
    split
    · rfl
    · rfl
    · unfold send
      split
      · rfl
      · rfl
      · split
        next r hr =>
          have habandoned := htry ‹_›
          rw [hr] at habandoned
          exact habandoned
        · rfl
      · rfl
    · rfl
    · exact htry _

/-- No step takes the reader away. -/
theorem abandoned_perform (x : Scene) (acts : List Act) :
    (x.perform buffer acts).run.abandoned = x.run.abandoned := by
  induction acts generalizing x with
  | nil => rfl
  | cons a acts ih => exact (ih (x.act buffer a)).trans (x.abandoned_act a)

theorem Leads.abandoned {r r' : LiveRun} {received received' : List Event}
    (h : Leads buffer (ofRun r received) (ofRun r' received')) : r'.abandoned = r.abandoned := by
  obtain ⟨acts, hacts⟩ := h
  have hsame : ((ofRun r received).perform buffer acts).run.abandoned = r.abandoned :=
    abandoned_perform _ acts
  rwa [hacts] at hsame

end Scene

namespace Hosting

variable {s t : Hosting} {n k handle : Nat} {r : HostedRun} {read : Nat → List Event}

/-- A run as its worker sees it. -/
def scene? (s : Hosting) (n : Nat) : Option Scene :=
  s.runs[n]?.map fun r => r.scene.withSignal (s.board.isUp r.worker)

/-- How far the reader of a run has let go. -/
def hold? (s : Hosting) (n : Nat) : Option Hold := s.runs[n]?.map (·.hold)

theorem scene?_raise (hkept : s.Kept) (hon : s.board.On handle n) (hn : n < s.runs.length) :
    (s.raise handle).scene? k = if k = n then (s.scene? k).map Scene.stop else s.scene? k := by
  simp only [scene?, raise]
  cases hr : s.runs[k]? with
  | none => simp
  | some r =>
    have hup := SignalBoard.isUp_raise hon (hkept.handles k r hr).1 (hkept.signals ▸ hn)
    simp only [Option.map_some, hup]
    by_cases hk : k = n
    · simp [hk, Scene.stop, Scene.withSignal]
    · simp [hk]

theorem scene?_onRun {f : HostedRun → HostedRun} {g : Scene → Scene}
    (hworker : ∀ r, (f r).worker = r.worker)
    (hf : ∀ r up, (f r).scene.withSignal up = g (r.scene.withSignal up)) :
    (s.onRun n f).scene? k = if k = n then (s.scene? k).map g else s.scene? k := by
  simp only [scene?, onRun, List.getElem?_modify]
  cases s.runs[k]? with
  | none => simp
  | some r =>
    by_cases hk : k = n
    · simp [hk, hworker, hf]
    · simp [hk, Ne.symm hk]

theorem withSignal_of_stopped {x : Scene} {up : Bool} (h : x.run.stopped = up) :
    x.withSignal up = x := by
  subst h
  rfl

theorem scene?_work (hkept : s.Kept) :
    (s.work n).scene? k =
      if k = n then (s.scene? k).map (Scene.work s.config.eventBuffer) else s.scene? k := by
  cases hr : s.runs[n]? with
  | none =>
    rw [work, hr]
    by_cases hk : k = n
    · simp [scene?, hk, hr]
    · simp [hk]
  | some r =>
    have hn := (List.getElem?_eq_some_iff.mp hr).1
    have hon := (hkept.handles n r hr).1
    -- The worker's scene is written back, and then seen with the signal as it is.
    have hwritten (t : Hosting) (ht : t.runs = s.runs) (y : Scene)
        (hy : y.run.stopped = t.board.isUp r.worker) :
        (t.onRun n fun r => { r with scene := y }).scene? k =
          if k = n then some y else t.scene? k := by
      simp only [scene?, onRun, List.getElem?_modify, ht]
      by_cases hk : k = n
      · simp [hk, hr, withSignal_of_stopped hy]
      · simp [hk, Ne.symm hk]
    have hseen : s.scene? n = some (r.scene.withSignal (s.board.isUp r.worker)) := by
      rw [scene?, hr, Option.map_some]
    rw [work, hr]
    simp only
    split
    next hup =>
      have hraised : (s.raise r.worker).board.isUp r.worker = true := by
        rw [raise, SignalBoard.isUp_raise hon hon (hkept.signals ▸ hn), decide_eq_true rfl,
          Bool.true_or]
      refine (hwritten (s.raise r.worker) rfl _ (hup.trans hraised.symm)).trans ?_
      by_cases hk : k = n
      · simp [hk, hseen]
      · simp [hk, scene?_raise hkept hon hn]
    next hdown =>
      rw [hwritten s rfl]
      · by_cases hk : k = n
        · simp [hk, hseen]
        · simp [hk]
      · cases hup : s.board.isUp r.worker with
        | false => simpa [hup] using hdown
        | true =>
          rw [hup] at hdown
          exact absurd (Scene.stopped_work rfl) hdown

theorem hold?_onRun {f : HostedRun → HostedRun} (hf : ∀ r, (f r).hold = r.hold) :
    (s.onRun n f).hold? k = s.hold? k := by
  simp only [hold?, onRun, List.getElem?_modify]
  cases s.runs[k]? with
  | none => rfl
  | some r => by_cases hk : n = k <;> simp [hk, hf]

theorem byReader_of_held {f : HostedRun → Hosting} (hr : s.runs[n]? = some r)
    (hheld : r.hold = .held) : s.byReader n f = f r := by
  simp [byReader, hr, hheld]

/-- The step of a host that is a step of one of its scenes. -/
def Act.ofScene (n : Nat) : Labyrinth.Act → Act
  | .work => .work n
  | .receive => .receive n
  | .stop => .stop n

/-- A host goes through steps of one of its scenes, and nothing else changes. -/
structure Plays (s t : Hosting) (n : Nat) (f : Scene → Scene) : Prop where
  /-- The owner has no part in it. -/
  quiet : Quiet s t
  /-- The scene of that run changes. -/
  scene : ∀ k, t.scene? k = if k = n then (s.scene? k).map f else s.scene? k
  /-- No reader leaves. -/
  hold : ∀ k, t.hold? k = s.hold? k

/-- A step of a scene is one of the host; steps other than the worker's need the reader. -/
theorem plays_act (hkept : s.Kept) (a : Labyrinth.Act) (ha : a = .work ∨ s.hold? n = some .held) :
    Plays s (s.act (.ofScene n a)) n (·.act s.config.eventBuffer a) := by
  have hreader (hheld : s.hold? n = some .held) : ∃ r, s.runs[n]? = some r ∧ r.hold = .held :=
    Option.map_eq_some_iff.mp hheld
  cases a with
  | work =>
    refine ⟨quiet_work s n, fun k => scene?_work hkept, fun k => ?_⟩
    simp only [Act.ofScene, act, work]
    split
    · rfl
    · split
      · exact hold?_onRun fun _ => rfl
      · exact hold?_onRun fun _ => rfl
  | receive =>
    obtain ⟨r, hr, hheld⟩ := hreader (ha.resolve_left (by simp))
    have hact : s.act (.ofScene n .receive) =
        s.onRun n fun r => { r with scene := r.scene.receive } := byReader_of_held hr hheld
    refine ⟨quiet_act rfl, fun k => ?_, fun k => ?_⟩
    · rw [hact]
      refine scene?_onRun (fun _ => rfl) fun r up => ?_
      simp only [Scene.act, Scene.receive, Scene.withSignal]
      split <;> rfl
    · rw [hact]
      exact hold?_onRun fun _ => rfl
  | stop =>
    obtain ⟨r, hr, hheld⟩ := hreader (ha.resolve_left (by simp))
    have hact : s.act (.ofScene n .stop) = s.raise r.reader := byReader_of_held hr hheld
    refine ⟨quiet_act rfl, fun k => ?_, fun k => ?_⟩
    · rw [hact]
      exact scene?_raise hkept (hkept.handles n r hr).2 (List.getElem?_eq_some_iff.mp hr).1
    · rw [hact]
      rfl

theorem plays_perform (hkept : s.Kept) (acts : List Labyrinth.Act)
    (hacts : (∀ a ∈ acts, a = .work) ∨ s.hold? n = some .held) :
    Plays s (s.perform (acts.map (.ofScene n))) n (·.perform s.config.eventBuffer acts) := by
  induction acts generalizing s with
  | nil => exact ⟨.refl s, fun k => by simp [perform, Scene.perform], fun k => rfl⟩
  | cons a acts ih =>
    have hfirst := plays_act hkept a (hacts.imp_left fun h => h a List.mem_cons_self)
    have hrest := ih (hkept.of_quiet hfirst.quiet) <| hacts.imp
      (fun h b hb => h b (List.mem_cons_of_mem a hb)) fun h => (hfirst.hold n).trans h
    refine ⟨hfirst.quiet.trans hrest.quiet, fun k => ?_, fun k => ?_⟩
    · have hscene := hrest.scene k
      rw [hfirst.scene k, hfirst.quiet.config] at hscene
      refine hscene.trans ?_
      by_cases hk : k = n
      · simp only [hk, if_true, Option.map_map]
        rfl
      · simp [hk]
    · exact (hrest.hold k).trans (hfirst.hold k)

/-! ## The runs of a host -/

/-- Some steps lead from a host in the middle of things to another. -/
def Leads (s t : Hosting) : Prop := ∃ acts, s.perform acts = t

theorem leads_refl (s : Hosting) : s.Leads s := ⟨[], rfl⟩

theorem leads_act (s : Hosting) (a : Act) : s.Leads (s.act a) := ⟨[a], rfl⟩

theorem Leads.trans {u : Hosting} (hst : s.Leads t) (htu : t.Leads u) : s.Leads u := by
  obtain ⟨acts, rfl⟩ := hst
  obtain ⟨acts', rfl⟩ := htu
  exact ⟨acts ++ acts', List.foldl_append⟩

/-- A host in the middle of things has some runs, of which some events have been read. -/
structure Mirrors (s : Hosting) (c : Config) (runs : List LiveRun) (read : Nat → List Event) :
    Prop where
  /-- It has these settings. -/
  config : s.config = c
  /-- It has as many runs. -/
  length : s.runs.length = runs.length
  /-- The workers see these runs. -/
  scene : ∀ n, s.scene? n = runs[n]?.map fun r => .ofRun r (read n)
  /-- A reader that is not there is gone. -/
  hold : ∀ n, s.hold? n = runs[n]?.map fun r => if r.abandoned then .gone else .held
  /-- The owner keeps the run that may be working. -/
  kept : s.Kept

variable {c : Config} {runs : List LiveRun}

/-- Steps of one of the runs. -/
theorem Mirrors.onRun (h : Mirrors s c runs read) {f : LiveRun → LiveRun} {events : List Event}
    (hf : ∀ r, runs[n]? = some r → ∃ acts : List Labyrinth.Act,
      ((∀ a ∈ acts, a = .work) ∨ r.abandoned = false) ∧
        (Scene.ofRun r (read n)).perform c.eventBuffer acts = .ofRun (f r) events) :
    ∃ t, s.Leads t ∧ Quiet s t ∧
      Mirrors t c (runs.modify n f) (Function.update read n events) := by
  cases hr : runs[n]? with
  | none =>
    have hmodify : runs.modify n f = runs :=
      List.modify_eq_self (List.getElem?_eq_none_iff.mp hr)
    refine ⟨s, leads_refl s, .refl s, h.config, ?_, fun k => ?_, ?_, h.kept⟩
    · rw [hmodify, h.length]
    · rw [hmodify, h.scene]
      by_cases hk : k = n
      · simp [hk, hr]
      · simp [hk]
    · rw [hmodify]
      exact h.hold
  | some r =>
    obtain ⟨acts, hacts, hperform⟩ := hf r hr
    have hplays := plays_perform h.kept acts <| hacts.imp_right fun habandoned => by
      rw [h.hold, hr, Option.map_some, habandoned]
      rfl
    rw [h.config] at hplays
    have habandoned : (f r).abandoned = r.abandoned := Scene.Leads.abandoned ⟨acts, hperform⟩
    refine ⟨_, ⟨_, rfl⟩, hplays.quiet, hplays.quiet.config.trans h.config, ?_, fun k => ?_,
      fun k => ?_, h.kept.of_quiet hplays.quiet⟩
    · rw [hplays.quiet.length, h.length, List.length_modify]
    · rw [hplays.scene, h.scene, List.getElem?_modify]
      by_cases hk : k = n
      · simp [hk, hr, hperform]
      · simp [hk, Ne.symm hk]
    · rw [hplays.hold, h.hold, List.getElem?_modify]
      by_cases hk : k = n
      · simp [hk, hr, habandoned]
      · simp [Ne.symm hk]

/-- Steps of the worker of one of the runs. -/
theorem Mirrors.works (h : Mirrors s c runs read) (n : Nat) {f : LiveRun → LiveRun}
    (hf : ∀ r received, Scene.Works c.eventBuffer (.ofRun r received) (.ofRun (f r) received)) :
    ∃ t, s.Leads t ∧ Quiet s t ∧ Mirrors t c (runs.modify n f) read := by
  have honRun : ∃ t, s.Leads t ∧ Quiet s t ∧
      Mirrors t c (runs.modify n f) (Function.update read n (read n)) := by
    refine h.onRun fun r _ => ?_
    obtain ⟨acts, hacts, hperform⟩ := hf r (read n)
    exact ⟨acts, .inl hacts, hperform⟩
  rwa [Function.update_eq_self] at honRun

/-- The owner goes on without having a part in the runs. -/
theorem Mirrors.of_owner (h : Mirrors s c runs read) {owner : Owner} {active : Option Charge}
    {answers : List Answer} (hkept : Kept { s with owner, active, answers }) :
    Mirrors { s with owner, active, answers } c runs read :=
  ⟨h.config, h.length, h.scene, h.hold, hkept⟩

theorem Mirrors.raise (h : Mirrors s c runs read) (hon : s.board.On handle n)
    (hn : n < s.runs.length) :
    Mirrors (s.raise handle) c (runs.modify n fun r => { r with stopped := true }) read where
  config := h.config
  length := by rw [List.length_modify, ← h.length, Hosting.raise]
  scene k := by
    rw [scene?_raise h.kept hon hn, h.scene, List.getElem?_modify]
    by_cases hk : k = n
    · subst hk
      cases runs[k]? <;> simp [Scene.stop, Scene.ofRun]
    · simp [hk, Ne.symm hk]
  hold k := by
    have hsame : (s.raise handle).hold? k = s.hold? k := rfl
    rw [hsame, h.hold, List.getElem?_modify]
    cases runs[k]? with
    | none => simp
    | some r => by_cases hk : n = k <;> simp [hk]
  kept := h.kept.of_quiet (quiet_raise s handle)

theorem getElem?_concat_eq {α : Type} (xs : List α) (x : α) (k : Nat) :
    (xs ++ [x])[k]? = if k = xs.length then some x else xs[k]? := by
  rcases Nat.lt_trichotomy k xs.length with hk | rfl | hk
  · rw [List.getElem?_append_left hk, if_neg (Nat.ne_of_lt hk)]
  · simp
  · rw [if_neg (Nat.ne_of_gt hk), List.getElem?_eq_none (by simpa using Nat.succ_le_of_lt hk),
      List.getElem?_eq_none (Nat.le_of_lt hk)]

/-- A run that begins is one more run. -/
theorem Mirrors.begin (h : Mirrors s c runs read) {job : Job} {last : Option Report}
    (howner : s.owner = .vacant (.start job) last) :
    Mirrors (s.begin job) c (runs ++ [job.run c.maxDepth])
      (Function.update read runs.length []) where
  config := h.config
  length := by simp [Hosting.begin, h.length]
  scene k := by
    have hruns : (s.begin job).runs[k]? = if k = s.runs.length then some _ else s.runs[k]? :=
      getElem?_concat_eq _ _ k
    rw [scene?, hruns, getElem?_concat_eq, ← h.length]
    by_cases hk : k = s.runs.length
    · simp only [hk, if_true, Option.map_some, Function.update_self, isUp_begin_self, ← h.config]
      rfl
    · rw [if_neg hk, if_neg hk, Function.update_of_ne hk, ← h.scene, scene?]
      refine Option.map_congr fun r hr => ?_
      rw [isUp_begin h.kept hr]
  hold k := by
    have hruns : (s.begin job).runs[k]? = if k = s.runs.length then some _ else s.runs[k]? :=
      getElem?_concat_eq _ _ k
    rw [hold?, hruns, getElem?_concat_eq, ← h.length]
    by_cases hk : k = s.runs.length
    · simp only [hk, if_true, Option.map_some]
      rfl
    · rw [if_neg hk, if_neg hk, ← h.hold, hold?]
  kept := h.kept.begin howner

/-- A reader raises the signal and is gone, at once. -/
def depart (s : Hosting) (n reader : Nat) : Hosting :=
  (s.raise reader).onRun n fun r => { r with scene := r.scene.disconnect, hold := .gone }

/-- A reader that leaves does so in two steps. -/
theorem leads_depart {r : HostedRun} (hr : s.runs[n]? = some r) (hheld : r.hold = .held) :
    s.Leads (s.depart n r.reader) := by
  refine ⟨[.release n, .disconnect n], ?_⟩
  have hrelease : s.act (.release n) =
      (s.raise r.reader).onRun n fun r => { r with hold := .leaving } := byReader_of_held hr hheld
  change (s.act (.release n)).act (.disconnect n) = _
  rw [hrelease]
  simp only [act, onRun, List.modify_modify_eq]
  rfl

/-- The reader of a run leaves it. -/
theorem Mirrors.leave (h : Mirrors s c runs read)
    (hpresent : ∀ r, runs[n]? = some r → r.abandoned = false) :
    ∃ t, s.Leads t ∧ Quiet s t ∧ Mirrors t c
      (runs.modify n fun r => { r with stopped := true, abandoned := true, queue := [] }) read := by
  rcases hr : runs[n]? with _ | r
  · rw [List.modify_eq_self (List.getElem?_eq_none_iff.mp hr)]
    exact ⟨s, leads_refl s, .refl s, h⟩
  have hhold : s.hold? n = some .held := by
    rw [h.hold, hr, Option.map_some, hpresent r hr]
    rfl
  obtain ⟨r', hr', hheld⟩ := Option.map_eq_some_iff.mp hhold
  have hn := (List.getElem?_eq_some_iff.mp hr').1
  have hquiet : Quiet s (s.depart n r'.reader) :=
    (quiet_raise _ _).trans <| quiet_onRun fun _ _ => ⟨rfl, rfl, rfl, fun _ h => h⟩
  refine ⟨_, leads_depart hr' hheld, hquiet, h.config, ?_, fun k => ?_, fun k => ?_,
    h.kept.of_quiet hquiet⟩
  · rw [hquiet.length, h.length, List.length_modify]
  · have hscene : (s.depart n r'.reader).scene? k =
        if k = n then ((s.raise r'.reader).scene? k).map Scene.disconnect
        else (s.raise r'.reader).scene? k := scene?_onRun (fun _ => rfl) fun _ _ => rfl
    rw [hscene, scene?_raise h.kept (h.kept.handles n r' hr').2 hn, h.scene, List.getElem?_modify]
    by_cases hk : k = n
    · simp [hk, hr, Scene.disconnect, Scene.stop, Scene.ofRun]
    · simp [hk, Ne.symm hk]
  · by_cases hk : k = n
    · simp [hk, hold?, depart, Hosting.onRun, Hosting.raise, hr, hr']
    · have hsame : (s.depart n r'.reader).hold? k = s.hold? k := by
        simp [hold?, depart, Hosting.onRun, Hosting.raise, Ne.symm hk]
      rw [hsame, h.hold, List.getElem?_modify]
      simp [Ne.symm hk]

theorem Mirrors.report? (h : Mirrors s c runs read) (n : Nat) :
    s.report? n = runs[n]?.bind (·.report?) := by
  have hscene := congrArg (Option.bind · (·.run.report?)) (h.scene n)
  simp only [scene?, Option.bind_map] at hscene
  exact hscene

end Hosting

end Labyrinth
