/-
  TRACKING: the local Ollama models that `ollama.rs` will ask to be released.

  A dispatch registers its model before the request that loads it.  An unload run reads the set, and then,
  entry by entry, has an exchange without the lock and removes the entry afterwards.  A model that is
  registered between the two is in the set already, and goes with the entry.

  1. **`unloadModel`**: an exchange, down to the status line of the response.
  2. **`OllamaState`**: the set and the runs, with an event for each of the steps that others may come
     between.
  3. **`Orderly`**: no model is registered between the end of its exchange and its removal.  Then what is used
     stays tracked (`Kept.step`), and a registration that is not orderly is lost with the removal.
  4. **`Undisputed`**: the same for the entries that a run reports as failed.

  What an exchange comes to is decided from its response, in the order in which the source asks: a status
  line that says success means unloaded; a status of 404, or a body that says "not found" in any case of
  letters, means not loaded; anything else is a failure, with the status line as its text.  An exchange
  that does not get as far as a response is a failure too.

  There is one lock, for the set, and none over an exchange.  Runs of `/ollama unload` and the one at
  shutdown may overlap, and dispatches come in between.  Each run works through the models that it found
  at its start.

  `Used` says of a history that a model was registered and that no exchange has released it since.  In an
  orderly run every such model is tracked, so the shutdown will ask for it; and where a registration comes
  between an exchange and its removal, the theorem gives the continuation in which it is forgotten.  The
  counts of a report add up in every run.
-/
import Tellm.Credentials

namespace Tellm

open Text Runs Substitutions

namespace Ollama

/-! ## One exchange -/

/-- `LoadedModel`: an entry of the set, a model at its base URL. -/
structure LoadedModel where
  baseUrl : String
  model : String
  deriving DecidableEq

/-- The derived order, field by field. -/
instance : Ord LoadedModel := ⟨compareLex (compareOn LoadedModel.baseUrl) (compareOn LoadedModel.model)⟩

instance : Std.TransOrd LoadedModel :=
  inferInstanceAs (Std.TransCmp (compareLex (compareOn LoadedModel.baseUrl) (compareOn LoadedModel.model)))

instance : Std.LawfulEqOrd LoadedModel where
  eq_of_compare := by
    intro model other h
    obtain ⟨hurl, hmodel⟩ := compareLex_eq_eq.mp h
    exact congrArg₂ LoadedModel.mk (Std.LawfulEqOrd.eq_of_compare hurl) (Std.LawfulEqOrd.eq_of_compare hmodel)

/-- `UnloadOutcome`: the two answers after which a model is not in memory. -/
inductive UnloadOutcome
  | unloaded
  | notLoaded
  deriving DecidableEq

/-- `UnloadSummary`: what an unload reports. -/
structure UnloadSummary where
  attempted : Nat := 0
  unloaded : List String := []
  notLoaded : List String := []
  failed : List (String × List Char) := []
  deriving DecidableEq

/-- `lines().next()`. -/
def firstLine (text : List Char) : Option (List Char) :=
  if text.isEmpty then none
  else
    let line := text.takeWhile (· != '\n')
    if '\n' ∈ text ∧ line.getLast? = some '\r' then some line.dropLast else some line

/-- `str::parse::<u16>`. -/
def parseU16 (text : List Char) : Option Nat :=
  let digits :=
    match text with
    | '+' :: digits => digits
    | digits => digits
  (parseDigits digits).filter (· ≤ 65535)

/-- `response_status_code`: the second word of the first line, as a `u16`. -/
def responseStatusCode (response : List Char) : Option Nat :=
  (firstLine response).bind fun line => (splitWhitespace line)[1]?.bind parseU16

/-- `response_is_success`. -/
def responseIsSuccess (response : List Char) : Bool :=
  (responseStatusCode response).any fun code => 200 ≤ code && code < 300

/-- `unload_response_outcome`: a success, or an error that says that there is no such model. -/
def unloadResponseOutcome (response : List Char) : Except (List Char) UnloadOutcome :=
  if responseIsSuccess response then .ok .unloaded
  else
    let body := ((splitAround "\r\n\r\n".toList response).map Prod.snd).getD []
    if responseStatusCode response = some 404 ∨
        (splitAround "not found".toList (body.map Char.toLower)).isSome then .ok .notLoaded
    else .error ("Ollama unload returned ".toList ++
      (firstLine response).getD "an empty HTTP response".toList)

/-- `unload_model`, where `response` is what comes of the connection: an error, or all that was read. -/
def unloadModel (model : LoadedModel) (response : Except (List Char) (List Char)) :
    Except (List Char) UnloadOutcome :=
  match localAddr model.baseUrl with
  | none => .error ("not a local Ollama endpoint: ".toList ++ model.baseUrl.toList)
  | some _ =>
    match response with
    | .error error => .error error
    | .ok response => unloadResponseOutcome response

/-! ## Dispatches and unload runs -/

/-- A run of `unload_models_blocking`. -/
structure UnloadRun where
  /-- What is left of the snapshot, the entry in hand first. -/
  models : List LoadedModel
  /-- How the exchange of the entry in hand has ended; the entry is removed next. -/
  outcome : Option UnloadOutcome
  summary : UnloadSummary
  /-- The entries behind `summary.failed`. -/
  failedModels : List LoadedModel
  reported : Bool

/-- The set of the models whose request began in this session, and the unloads that run. -/
structure OllamaState where
  tracked : BTreeSet LoadedModel
  runs : List UnloadRun

/-- What the tasks do to the set. -/
inductive OllamaEvent
  /-- A dispatch of the model; the request that loads it comes next, and does not look at the set. -/
  | rememberModel (baseUrl model : String)
  /-- `unload_models_blocking` is called, and reads the set. -/
  | snapshot
  | exchange (run : Nat) (response : Except (List Char) (List Char))
  | remove (run : Nat)
  | report (run : Nat)

namespace UnloadRun

/-- A run over the models that the set had. -/
def start (models : List LoadedModel) : UnloadRun := ⟨models, none, { attempted := models.length }, [], false⟩

/-- The exchange of the first entry. -/
def exchange (self : UnloadRun) (response : Except (List Char) (List Char)) : Option UnloadRun :=
  match self.models, self.outcome with
  | model :: models, none =>
    match unloadModel model response with
    | .ok outcome => some { self with outcome := some outcome }
    | .error error =>
      some { self with
        models := models
        summary := { self.summary with failed := self.summary.failed ++ [(model.model, error)] }
        failedModels := self.failedModels ++ [model] }
  | _, _ => none

/-- The first entry, whose exchange has released it. -/
def released (self : UnloadRun) : Option LoadedModel :=
  match self.models, self.outcome with
  | model :: _, some _ => some model
  | _, _ => none

/-- The entry is removed, and goes into the summary. -/
def remove (self : UnloadRun) : Option UnloadRun :=
  match self.models, self.outcome with
  | model :: models, some .unloaded =>
    some { self with
      models := models
      outcome := none
      summary := { self.summary with unloaded := self.summary.unloaded ++ [model.model] } }
  | model :: models, some .notLoaded =>
    some { self with
      models := models
      outcome := none
      summary := { self.summary with notLoaded := self.summary.notLoaded ++ [model.model] } }
  | _, _ => none

/-- The run is over, and its summary returned. -/
def report (self : UnloadRun) : Option UnloadRun :=
  if self.models = [] ∧ self.outcome = none ∧ self.reported = false then some { self with reported := true }
  else none

end UnloadRun

namespace OllamaState

/-- No model, and no run. -/
def start : OllamaState := ⟨∅, []⟩

/-- `remember_model`. -/
def rememberModel (self : OllamaState) (baseUrl model : String) : OllamaState :=
  match localAddr baseUrl with
  | none => self
  | some _ => { self with tracked := self.tracked.insert ⟨baseUrl, model⟩ }

/-- A step of one run. -/
def advance (self : OllamaState) (run : Nat) (f : UnloadRun → Option UnloadRun) : Option OllamaState :=
  match self.runs[run]? with
  | none => none
  | some current => (f current).map fun next => { self with runs := self.runs.set run next }

/-- One step of one task. -/
def step (self : OllamaState) : OllamaEvent → Option OllamaState
  | .rememberModel baseUrl model => some (self.rememberModel baseUrl model)
  | .snapshot => some { self with runs := self.runs ++ [.start self.tracked.toList] }
  | .exchange run response => self.advance run (·.exchange response)
  | .remove run =>
    match self.runs[run]?.bind UnloadRun.released with
    | none => none
    | some model => { self with tracked := self.tracked.erase model }.advance run UnloadRun.remove
  | .report run => self.advance run UnloadRun.report

end OllamaState

/-- The set with its tasks as a system. -/
def ollamaSys : Sys OllamaState OllamaEvent := ⟨OllamaState.step⟩

theorem ollamaSys_step (s : OllamaState) (e : OllamaEvent) : ollamaSys.step s e = s.step e := rfl

/-- The steps so far, newest first. -/
abbrev OllamaHistory := List (OllamaState × OllamaEvent)

/-! ## What a step does -/

section

variable {self next : UnloadRun} {model : LoadedModel}

theorem released_eq_some (h : self.released = some model) :
    ∃ models outcome, self.models = model :: models ∧ self.outcome = some outcome := by
  unfold UnloadRun.released at h
  split at h
  · rename_i hmodels houtcome
    cases h
    exact ⟨_, _, hmodels, houtcome⟩
  · cases h

/-- An entry in hand whose exchange is still to come is not released. -/
theorem released_ne (h : self.outcome = none) : self.released ≠ some model := by
  intro hreleased
  obtain ⟨models, outcome, -, houtcome⟩ := released_eq_some hreleased
  cases h.symm.trans houtcome

/-- An exchange releases the entry in hand, or it fails. -/
theorem exchange_eq_some {response : Except (List Char) (List Char)}
    (h : self.exchange response = some next) :
    ∃ model models, self.models = model :: models ∧ self.outcome = none ∧
      ((∃ outcome, unloadModel model response = .ok outcome ∧ next = { self with outcome := some outcome }) ∨
        ∃ error, unloadModel model response = .error error ∧
          next = { self with
            models := models
            summary := { self.summary with failed := self.summary.failed ++ [(model.model, error)] }
            failedModels := self.failedModels ++ [model] }) := by
  unfold UnloadRun.exchange at h
  split at h
  · rename_i model models hmodels houtcome
    refine ⟨model, models, hmodels, houtcome, ?_⟩
    split at h
    · rename_i outcome hresult
      exact Or.inl ⟨outcome, hresult, (Option.some.inj h).symm⟩
    · rename_i error hresult
      exact Or.inr ⟨error, hresult, (Option.some.inj h).symm⟩
  · cases h

/-- A removed entry counts as unloaded or as not loaded. -/
theorem remove_eq_some (h : self.remove = some next) :
    ∃ model models, self.models = model :: models ∧ next.models = models ∧ next.outcome = none ∧
      next.failedModels = self.failedModels ∧ next.reported = self.reported ∧
      next.summary.attempted = self.summary.attempted ∧ next.summary.failed = self.summary.failed ∧
      next.summary.unloaded.length + next.summary.notLoaded.length =
        self.summary.unloaded.length + self.summary.notLoaded.length + 1 := by
  unfold UnloadRun.remove at h
  split at h
  · rename_i model models hmodels houtcome
    cases h
    refine ⟨model, models, hmodels, rfl, rfl, rfl, rfl, rfl, rfl, ?_⟩
    show (self.summary.unloaded ++ [model.model]).length + self.summary.notLoaded.length = _
    rw [List.length_append, List.length_singleton]
    omega
  · rename_i model models hmodels houtcome
    cases h
    refine ⟨model, models, hmodels, rfl, rfl, rfl, rfl, rfl, rfl, ?_⟩
    show self.summary.unloaded.length + (self.summary.notLoaded ++ [model.model]).length = _
    rw [List.length_append, List.length_singleton]
    omega
  · cases h

theorem report_eq_some (h : self.report = some next) :
    self.models = [] ∧ self.outcome = none ∧ self.reported = false ∧
        next = { self with reported := true } := by
  unfold UnloadRun.report at h
  split at h
  · rename_i hdone
    exact ⟨hdone.1, hdone.2.1, hdone.2.2, (Option.some.inj h).symm⟩
  · cases h

end

/-- What a step does. -/
inductive Steps (s : OllamaState) : OllamaEvent → OllamaState → Prop
  | rememberModel {baseUrl model} : Steps s (.rememberModel baseUrl model) (s.rememberModel baseUrl model)
  | snapshot : Steps s .snapshot { s with runs := s.runs ++ [.start s.tracked.toList] }
  | exchange {run current next response} :
      s.runs[run]? = some current → current.exchange response = some next →
      Steps s (.exchange run response) { s with runs := s.runs.set run next }
  | remove {run current next model} : s.runs[run]? = some current → current.released = some model →
      current.remove = some next →
      Steps s (.remove run) { s with tracked := s.tracked.erase model, runs := s.runs.set run next }
  | report {run current next} : s.runs[run]? = some current → current.report = some next →
      Steps s (.report run) { s with runs := s.runs.set run next }

theorem advance_eq_some {s s' : OllamaState} {run : Nat} {f : UnloadRun → Option UnloadRun}
    (h : s.advance run f = some s') : ∃ current next, s.runs[run]? = some current ∧ f current = some next ∧
      s' = { s with runs := s.runs.set run next } := by
  unfold OllamaState.advance at h
  split at h
  · cases h
  · rename_i current hcurrent
    obtain ⟨next, hnext, heq⟩ := Option.map_eq_some_iff.mp h
    exact ⟨current, next, hcurrent, hnext, heq.symm⟩

theorem steps_of_step {s s' : OllamaState} {e : OllamaEvent} (h : s.step e = some s') : Steps s e s' := by
  cases e with
  | rememberModel baseUrl model =>
    cases h
    exact .rememberModel
  | snapshot =>
    cases h
    exact .snapshot
  | exchange run response =>
    obtain ⟨current, next, hcurrent, hnext, rfl⟩ := advance_eq_some h
    exact .exchange hcurrent hnext
  | remove run =>
    unfold OllamaState.step at h
    dsimp only at h
    split at h
    · cases h
    · rename_i model hreleased
      obtain ⟨current, next, hcurrent, hnext, rfl⟩ := advance_eq_some h
      have hcurrent' : s.runs[run]? = some current := hcurrent
      rw [hcurrent', Option.bind_some] at hreleased
      exact .remove hcurrent' hreleased hnext
  | report run =>
    obtain ⟨current, next, hcurrent, hnext, rfl⟩ := advance_eq_some h
    exact .report hcurrent hnext

/-- Where one run has moved on, each of the runs is that one or an old one. -/
theorem mem_set {runs : List UnloadRun} {run : Nat} {next other : UnloadRun} (h : other ∈ runs.set run next) :
    other = next ∨ other ∈ runs := (List.mem_or_eq_of_mem_set h).symm

/-! ## Used models -/

/-- The step registers the model. -/
def Remembers (model : LoadedModel) (x : OllamaState × OllamaEvent) : Prop :=
  match x.2 with
  | .rememberModel baseUrl name => (localAddr baseUrl).isSome = true ∧ model = ⟨baseUrl, name⟩
  | _ => False

/-- The step is an exchange of the model, and ends in `Unloaded` or `NotLoaded`. -/
def Releases (model : LoadedModel) (x : OllamaState × OllamaEvent) : Prop :=
  match x.2 with
  | .exchange run response => ∃ current outcome, x.1.runs[run]? = some current ∧
      current.models.head? = some model ∧ unloadModel model response = .ok outcome
  | _ => False

/-- The model was registered, and no exchange has released it since. -/
def Used (model : LoadedModel) (h : OllamaHistory) : Prop :=
  Since (fun x => ¬ Releases model x) (Remembers model) h

/-- No model is registered between the end of its exchange and its removal. -/
def Orderly (x : OllamaState × OllamaEvent) : Prop :=
  ∀ model, Remembers model x → ∀ current ∈ x.1.runs, current.released ≠ some model

/-- The model is tracked, and no removal of it is under way. -/
structure Kept (model : LoadedModel) (s : OllamaState) : Prop where
  tracked : model ∈ s.tracked
  settled : ∀ current ∈ s.runs, current.released ≠ some model

theorem mem_rememberModel {s : OllamaState} {baseUrl name : String} {model : LoadedModel}
    (h : model ∈ s.tracked) : model ∈ (s.rememberModel baseUrl name).tracked := by
  unfold OllamaState.rememberModel
  split
  · exact h
  · exact Std.ExtTreeSet.mem_insert.mpr (Or.inr h)

theorem runs_rememberModel (s : OllamaState) (baseUrl name : String) :
    (s.rememberModel baseUrl name).runs = s.runs := by
  unfold OllamaState.rememberModel
  split <;> rfl

theorem mem_rememberModel_self {s : OllamaState} {baseUrl : String} (h : (localAddr baseUrl).isSome = true)
    (name : String) : ⟨baseUrl, name⟩ ∈ (s.rememberModel baseUrl name).tracked := by
  unfold OllamaState.rememberModel
  split
  · rename_i haddr
    rw [haddr] at h
    cases h
  · exact Std.ExtTreeSet.mem_insert_self

theorem mem_erase_of_ne {tracked : BTreeSet LoadedModel} {model other : LoadedModel} (h : model ∈ tracked)
    (hne : other ≠ model) : model ∈ tracked.erase other :=
  Std.ExtTreeSet.mem_erase.mpr ⟨fun heq => hne (Std.LawfulEqOrd.eq_of_compare heq), h⟩

/-- **One step** keeps a model that it does not release: it stays in the set of tracked models, and no removal
    of it comes under way. -/
theorem Kept.step {model : LoadedModel} {s s' : OllamaState} {e : OllamaEvent} (hk : Kept model s)
    (hs : Steps s e s') (hnot : ¬ Releases model (s, e)) : Kept model s' := by
  -- only a removal takes a model from the set, and it removes what its run has found released
  cases hs with
  | rememberModel =>
    refine ⟨mem_rememberModel hk.tracked, ?_⟩
    rw [runs_rememberModel]
    exact hk.settled
  | snapshot =>
    refine ⟨hk.tracked, fun current hmem => ?_⟩
    rcases List.mem_append.mp hmem with hmem | hmem
    · exact hk.settled current hmem
    · rw [List.mem_singleton.mp hmem]
      exact released_ne rfl
  | @exchange run current next response hcurrent hnext =>
    refine ⟨hk.tracked, fun other hmem => ?_⟩
    rcases mem_set hmem with rfl | hmem
    · obtain ⟨first, models, hmodels, houtcome, ⟨outcome, hresult, rfl⟩ | ⟨error, -, rfl⟩⟩ :=
        exchange_eq_some hnext
      · intro hreleased
        obtain ⟨models', outcome', hmodels', -⟩ := released_eq_some hreleased
        obtain ⟨rfl, -⟩ := List.cons.inj (hmodels.symm.trans hmodels')
        exact hnot ⟨current, outcome, hcurrent, by rw [hmodels]; rfl, hresult⟩
      · exact released_ne houtcome
    · exact hk.settled other hmem
  | @remove run current next erased hcurrent hreleased hnext =>
    have hne : erased ≠ model := by
      rintro rfl
      exact hk.settled current (List.mem_of_getElem? hcurrent) hreleased
    refine ⟨mem_erase_of_ne hk.tracked hne, fun other hmem => ?_⟩
    rcases mem_set hmem with rfl | hmem
    · obtain ⟨-, -, -, -, houtcome, -⟩ := remove_eq_some hnext
      exact released_ne houtcome
    · exact hk.settled other hmem
  | @report run current next hcurrent hnext =>
    refine ⟨hk.tracked, fun other hmem => ?_⟩
    rcases mem_set hmem with rfl | hmem
    · obtain ⟨-, houtcome, -, rfl⟩ := report_eq_some hnext
      exact released_ne houtcome
    · exact hk.settled other hmem

/-- An orderly registration keeps its model. -/
theorem Kept.remember {model : LoadedModel} {s s' : OllamaState} {e : OllamaEvent}
    (hremembers : Remembers model (s, e)) (horderly : Orderly (s, e)) (hs : Steps s e s') :
    Kept model s' := by
  have hsettled := horderly model hremembers
  cases hs with
  | @rememberModel baseUrl name =>
    obtain ⟨haddr, rfl⟩ := hremembers
    refine ⟨mem_rememberModel_self haddr name, ?_⟩
    rw [runs_rememberModel]
    exact hsettled
  | _ => exact absurd hremembers id

theorem Path.kept {h : OllamaHistory} {s : OllamaState} (p : Path ollamaSys .start h s)
    (horderly : ∀ x ∈ h, Orderly x) (model : LoadedModel) (hused : Used model h) : Kept model s := by
  induction p with
  | start =>
    obtain ⟨x, hmem, -⟩ := hused.exists_mem
    exact absurd hmem List.not_mem_nil
  | step p hs ih =>
    have hsteps := steps_of_step hs
    rcases since_cons.mp hused with hremembers | ⟨hnot, hused⟩
    · exact Kept.remember hremembers (horderly _ List.mem_cons_self) hsteps
    · exact (ih (fun x hx => horderly x (List.mem_cons_of_mem _ hx)) hused).step hsteps hnot

/-- **A registration that comes too late is lost**: the removal under way takes the model with it. -/
theorem late_lost {h : OllamaHistory} {s : OllamaState} (p : Path ollamaSys .start h s)
    {baseUrl name : String} (haddr : (localAddr baseUrl).isSome = true) {run : Nat} {current : UnloadRun}
    (hcurrent : s.runs[run]? = some current) (hreleased : current.released = some ⟨baseUrl, name⟩) :
    ∃ s', Path ollamaSys .start ((s.rememberModel baseUrl name, .remove run) ::
        (s, .rememberModel baseUrl name) :: h) s' ∧
      Used ⟨baseUrl, name⟩
        ((s.rememberModel baseUrl name, .remove run) :: (s, .rememberModel baseUrl name) :: h) ∧
      ⟨baseUrl, name⟩ ∉ s'.tracked := by
  have hcurrent' : (s.rememberModel baseUrl name).runs[run]? = some current := by
    rw [runs_rememberModel]
    exact hcurrent
  obtain ⟨models, outcome, hmodels, houtcome⟩ := released_eq_some hreleased
  obtain ⟨next, hnext⟩ : ∃ next, current.remove = some next := by
    unfold UnloadRun.remove
    rw [hmodels, houtcome]
    cases outcome with
    | unloaded => exact ⟨_, rfl⟩
    | notLoaded => exact ⟨_, rfl⟩
  -- the run still has the answer it got before the model was registered again
  have hremove : ollamaSys.step (s.rememberModel baseUrl name) (.remove run) =
      some ⟨(s.rememberModel baseUrl name).tracked.erase ⟨baseUrl, name⟩,
        (s.rememberModel baseUrl name).runs.set run next⟩ := by
    rw [ollamaSys_step]
    unfold OllamaState.step OllamaState.advance
    dsimp only
    rw [hcurrent', Option.bind_some, hreleased]
    dsimp only
    rw [hnext]
    rfl
  refine ⟨_, (Path.step (e := .rememberModel baseUrl name) p rfl).step hremove, ?_, ?_⟩
  · exact since_cons.mpr (Or.inr ⟨id, since_cons.mpr (Or.inl ⟨haddr, rfl⟩)⟩)
  · exact fun hmem => (Std.ExtTreeSet.mem_erase.mp hmem).1 Std.ReflCmp.compare_self

/-! ## Reports -/

/-- The step is a run's report. -/
def Reports (current : UnloadRun) (x : OllamaState × OllamaEvent) : Prop :=
  ∃ run, x.2 = .report run ∧ x.1.runs[run]? = some current

/-- Every entry of the snapshot is in the summary, or still to come. -/
structure Accounted (current : UnloadRun) : Prop where
  attempted : current.summary.attempted = current.summary.unloaded.length + current.summary.notLoaded.length +
    current.summary.failed.length + current.models.length
  failed : current.summary.failed.map Prod.fst = current.failedModels.map LoadedModel.model

/-- No entry that a run has failed on, and is still to report, is removed; nor does an exchange fail on an
    entry that is removed already. -/
def Undisputed (x : OllamaState × OllamaEvent) : Prop :=
  match x.2 with
  | .remove run => ∀ current model, x.1.runs[run]? = some current → current.released = some model →
      ∀ other ∈ x.1.runs, other.reported = false → model ∉ other.failedModels
  | .exchange run response => ∀ current model error, x.1.runs[run]? = some current →
      current.models.head? = some model → unloadModel model response = .error error → model ∈ x.1.tracked
  | _ => True

theorem accounted_start (models : List LoadedModel) : Accounted (.start models) :=
  ⟨(Nat.zero_add _).symm, rfl⟩

theorem Accounted.step {s s' : OllamaState} {e : OllamaEvent} (h : ∀ current ∈ s.runs, Accounted current)
    (hs : Steps s e s') : ∀ current ∈ s'.runs, Accounted current := by
  intro other hmem
  -- an entry is counted once: when the exchange fails, or else when it is removed
  cases hs with
  | rememberModel =>
    rw [runs_rememberModel] at hmem
    exact h other hmem
  | snapshot =>
    rcases List.mem_append.mp hmem with hmem | hmem
    · exact h other hmem
    · rw [List.mem_singleton.mp hmem]
      exact accounted_start _
  | @exchange run current next response hcurrent hnext =>
    rcases mem_set hmem with rfl | hmem
    · have hcurrent := h current (List.mem_of_getElem? hcurrent)
      obtain ⟨first, models, hmodels, -, ⟨outcome, -, rfl⟩ | ⟨error, -, rfl⟩⟩ := exchange_eq_some hnext
      · exact ⟨hcurrent.attempted, hcurrent.failed⟩
      · have hattempted := hcurrent.attempted
        rw [hmodels, List.length_cons] at hattempted
        refine ⟨?_, ?_⟩
        · show current.summary.attempted =
            current.summary.unloaded.length + current.summary.notLoaded.length +
            (current.summary.failed ++ [(first.model, error)]).length + models.length
          rw [List.length_append, List.length_singleton]
          omega
        · show (current.summary.failed ++ [(first.model, error)]).map Prod.fst =
            (current.failedModels ++ [first]).map LoadedModel.model
          rw [List.map_append, List.map_append, hcurrent.failed]
          rfl
    · exact h other hmem
  | @remove run current next erased hcurrent hreleased hnext =>
    rcases mem_set hmem with rfl | hmem
    · have hcurrent := h current (List.mem_of_getElem? hcurrent)
      obtain ⟨first, models, hmodels, hmodels', -, hfailedModels, -, hattempted', hfailed', hcount⟩ :=
        remove_eq_some hnext
      have hattempted := hcurrent.attempted
      rw [hmodels, List.length_cons] at hattempted
      refine ⟨?_, ?_⟩
      · rw [hattempted', hmodels', hfailed']
        omega
      · rw [hfailed', hfailedModels, hcurrent.failed]
    · exact h other hmem
  | @report run current next hcurrent hnext =>
    rcases mem_set hmem with rfl | hmem
    · have hcurrent := h current (List.mem_of_getElem? hcurrent)
      obtain ⟨-, -, -, rfl⟩ := report_eq_some hnext
      exact ⟨hcurrent.attempted, hcurrent.failed⟩
    · exact h other hmem

/-- Every failed entry of a run that is still to report is tracked. -/
def FailedTracked (s : OllamaState) : Prop :=
  ∀ current ∈ s.runs, current.reported = false → ∀ model ∈ current.failedModels, model ∈ s.tracked

theorem FailedTracked.step {s s' : OllamaState} {e : OllamaEvent} (h : FailedTracked s) (hs : Steps s e s')
    (hundisputed : Undisputed (s, e)) : FailedTracked s' := by
  intro other hmem hreported model hmodel
  cases hs with
  | rememberModel =>
    rw [runs_rememberModel] at hmem
    exact mem_rememberModel (h other hmem hreported model hmodel)
  | snapshot =>
    rcases List.mem_append.mp hmem with hmem | hmem
    · exact h other hmem hreported model hmodel
    · rw [List.mem_singleton.mp hmem] at hmodel
      exact absurd hmodel List.not_mem_nil
  | @exchange run current next response hcurrent hnext =>
    rcases mem_set hmem with rfl | hmem
    · have hrun := List.mem_of_getElem? hcurrent
      obtain ⟨first, models, hmodels, -, ⟨outcome, -, rfl⟩ | ⟨error, hresult, rfl⟩⟩ := exchange_eq_some hnext
      · exact h current hrun hreported model hmodel
      · rcases List.mem_append.mp hmodel with hmodel | hmodel
        · exact h current hrun hreported model hmodel
        · rw [List.mem_singleton.mp hmodel]
          exact hundisputed current first error hcurrent (by rw [hmodels]; rfl) hresult
    · exact h other hmem hreported model hmodel
  | @remove run current next erased hcurrent hreleased hnext =>
    have hrun := List.mem_of_getElem? hcurrent
    -- the run that removes the entry has the same failed entries before and after
    obtain ⟨before, hbefore, hbeforeReported, hbeforeModel⟩ :
        ∃ before ∈ s.runs, before.reported = false ∧ model ∈ before.failedModels := by
      rcases mem_set hmem with rfl | hmem
      · obtain ⟨-, -, -, -, -, hfailedModels, hreported', -⟩ := remove_eq_some hnext
        rw [hfailedModels] at hmodel
        rw [hreported'] at hreported
        exact ⟨current, hrun, hreported, hmodel⟩
      · exact ⟨other, hmem, hreported, hmodel⟩
    refine mem_erase_of_ne (h before hbefore hbeforeReported model hbeforeModel) ?_
    rintro rfl
    exact hundisputed current erased hcurrent hreleased before hbefore hbeforeReported hbeforeModel
  | @report run current next hcurrent hnext =>
    rcases mem_set hmem with rfl | hmem
    · obtain ⟨-, -, -, rfl⟩ := report_eq_some hnext
      cases hreported
    · exact h other hmem hreported model hmodel

/-- Every report adds up. -/
theorem Path.accounted {h : OllamaHistory} {s : OllamaState} (p : Path ollamaSys .start h s) :
    (∀ current ∈ s.runs, Accounted current) ∧ ∀ x ∈ h, ∀ current ∈ x.1.runs, Accounted current := by
  induction p with
  | start => exact ⟨fun _ hmem => absurd hmem List.not_mem_nil, fun _ hmem => absurd hmem List.not_mem_nil⟩
  | step p hs ih =>
    exact ⟨Accounted.step ih.1 (steps_of_step hs), List.forall_mem_cons.mpr ⟨ih.1, ih.2⟩⟩

/-- In an undisputed run, every failed entry is tracked until it is reported. -/
theorem Path.failedTracked {h : OllamaHistory} {s : OllamaState} (p : Path ollamaSys .start h s) :
    (∀ x ∈ h, Undisputed x) → FailedTracked s ∧ ∀ x ∈ h, FailedTracked x.1 := by
  induction p with
  | start =>
    exact fun _ => ⟨fun _ hmem => absurd hmem List.not_mem_nil, fun _ hmem => absurd hmem List.not_mem_nil⟩
  | step p hs ih =>
    intro hundisputed
    obtain ⟨hnow, hbefore⟩ := ih fun x hx => hundisputed x (List.mem_cons_of_mem _ hx)
    exact ⟨hnow.step (steps_of_step hs) (hundisputed _ List.mem_cons_self),
      List.forall_mem_cons.mpr ⟨hnow, hbefore⟩⟩

/-! ## What is tracked -/

/-- The run has all its exchanges behind it. -/
theorem Reports.models_eq {s s' : OllamaState} {e : OllamaEvent} {current : UnloadRun}
    (hs : Steps s e s') (hreports : Reports current (s, e)) :
    current.models = [] ∧ current.reported = false := by
  obtain ⟨run, rfl, hcurrent⟩ := hreports
  cases hs with
  | @report run current' next hcurrent' hnext =>
    obtain rfl := Option.some.inj (hcurrent.symm.trans hcurrent')
    obtain ⟨hmodels, -, hreported, -⟩ := report_eq_some hnext
    exact ⟨hmodels, hreported⟩

theorem Path.reports {h : OllamaHistory} {s : OllamaState} (p : Path ollamaSys .start h s) :
    ∀ x ∈ h, ∀ current, Reports current x → current.models = [] ∧ current.reported = false := by
  induction p with
  | start => exact fun _ hmem => absurd hmem List.not_mem_nil
  | step p hs ih =>
    exact List.forall_mem_cons.mpr ⟨fun current => Reports.models_eq (steps_of_step hs), ih⟩

/-- **What is tracked.**  In an orderly run, every used model; and in an undisputed one, every entry that
    a report counts as failed.  Every report adds up.  And a registration that is not orderly can be lost. -/
theorem used_models_tracked {h : OllamaHistory} {s : OllamaState} (p : Path ollamaSys .start h s) :
    ((∀ x ∈ h, Orderly x) → ∀ model, Used model h → model ∈ s.tracked) ∧
    (∀ x ∈ h, ∀ current, Reports current x →
      current.summary.attempted = current.summary.unloaded.length + current.summary.notLoaded.length +
        current.summary.failed.length ∧
      current.summary.failed.map Prod.fst = current.failedModels.map LoadedModel.model) ∧
    ((∀ x ∈ h, Undisputed x) → ∀ x ∈ h, ∀ current, Reports current x →
      ∀ model ∈ current.failedModels, model ∈ x.1.tracked) ∧
    ∀ (baseUrl name : String) (run : Nat) (current : UnloadRun), (localAddr baseUrl).isSome = true →
      s.runs[run]? = some current → current.released = some ⟨baseUrl, name⟩ →
      ∃ s', Path ollamaSys .start ((s.rememberModel baseUrl name, .remove run) ::
          (s, .rememberModel baseUrl name) :: h) s' ∧
        Used ⟨baseUrl, name⟩ ((s.rememberModel baseUrl name, .remove run) ::
          (s, .rememberModel baseUrl name) :: h) ∧
        ⟨baseUrl, name⟩ ∉ s'.tracked := by
  refine ⟨?_, ?_, ?_, ?_⟩
  · intro horderly model hused
    exact (Path.kept p horderly model hused).tracked
  · intro x hx current hreports
    have hmodels := (Path.reports p x hx current hreports).1
    obtain ⟨run, -, hcurrent⟩ := hreports
    -- a run that reports has gone through its whole snapshot
    have haccounted := (Path.accounted p).2 x hx current (List.mem_of_getElem? hcurrent)
    have hattempted := haccounted.attempted
    rw [hmodels, List.length_nil, Nat.add_zero] at hattempted
    exact ⟨hattempted, haccounted.failed⟩
  · intro hundisputed x hx current hreports
    have hreported := (Path.reports p x hx current hreports).2
    obtain ⟨run, -, hcurrent⟩ := hreports
    exact (Path.failedTracked p hundisputed).2 x hx current (List.mem_of_getElem? hcurrent) hreported
  · intro baseUrl name run current haddr hcurrent hreleased
    exact late_lost p haddr hcurrent hreleased

/-- An Ollama at its default address. -/
def llama : LoadedModel := ⟨"http://localhost:11434/v1", "llama"⟩

/-- The state after the model is registered. -/
def remembered : OllamaState := OllamaState.start.rememberModel llama.baseUrl llama.model

/-- The state in which an unload run has read the set; its exchange of the model is still to come, or over. -/
def unloading (outcome : Option UnloadOutcome) : OllamaState :=
  ⟨remembered.tracked, [⟨[llama], outcome, { attempted := 1 }, [], false⟩]⟩

theorem path_unloading : Path ollamaSys .start
    [(unloading none, .exchange 0 (.ok "HTTP/1.1 200 OK\r\n\r\n".toList)), (remembered, .snapshot),
      (.start, .rememberModel llama.baseUrl llama.model)] (unloading (some .unloaded)) :=
  .step (.step (.step .start rfl) rfl) rfl

/-- **A used model is forgotten**: it is registered again when Ollama has unloaded it, and before its entry is
    removed. -/
theorem used_model_forgotten : ∃ s, Path ollamaSys .start
    [((unloading (some .unloaded)).rememberModel llama.baseUrl llama.model, .remove 0),
      (unloading (some .unloaded), .rememberModel llama.baseUrl llama.model),
      (unloading none, .exchange 0 (.ok "HTTP/1.1 200 OK\r\n\r\n".toList)), (remembered, .snapshot),
      (.start, .rememberModel llama.baseUrl llama.model)] s ∧
    Used llama [((unloading (some .unloaded)).rememberModel llama.baseUrl llama.model, .remove 0),
      (unloading (some .unloaded), .rememberModel llama.baseUrl llama.model),
      (unloading none, .exchange 0 (.ok "HTTP/1.1 200 OK\r\n\r\n".toList)), (remembered, .snapshot),
      (.start, .rememberModel llama.baseUrl llama.model)] ∧
    llama ∉ s.tracked :=
  @late_lost _ _ path_unloading llama.baseUrl llama.model (by decide) 0 _ rfl rfl

/-- The unload fails; the model stays tracked. -/
theorem used_model_tracked : ∃ h s, Path ollamaSys .start h s ∧ Used llama h ∧ llama ∈ s.tracked := by
  have p : Path ollamaSys .start
    [(unloading none, .exchange 0 (.error "refused".toList)), (remembered, .snapshot),
      (.start, .rememberModel llama.baseUrl llama.model)]
      ⟨remembered.tracked, [⟨[], none, ⟨1, [], [], [("llama", "refused".toList)]⟩, [llama], false⟩]⟩ :=
    .step (.step (.step .start rfl) rfl) rfl
  have hused : Used llama [(unloading none, .exchange 0 (.error "refused".toList)), (remembered, .snapshot),
      (.start, .rememberModel llama.baseUrl llama.model)] := by
    refine since_cons.mpr
      (Or.inr ⟨?_, since_cons.mpr (Or.inr ⟨id, since_cons.mpr (Or.inl ⟨by decide, rfl⟩)⟩)⟩)
    rintro ⟨current, outcome, -, -, hresult⟩
    cases hresult
  refine ⟨_, _, p, hused, (used_models_tracked p).1 ?_ llama hused⟩
  intro x hx model hremembers current hmem
  rcases List.mem_cons.mp hx with rfl | hx
  · exact absurd hremembers id
  rcases List.mem_cons.mp hx with rfl | hx
  · exact absurd hremembers id
  · rw [List.mem_singleton.mp hx] at hmem
    exact absurd hmem List.not_mem_nil

end Ollama

end Tellm
