import AgentlyStage.Lib.Chase

/-!
# The classification of tasks

`Stage._classify_task`: what kind of task an object is, found through the wrappers around it.
The objects of the interpreter are a parameter, with the tests of the source and the
attributes it reads; an attribute whose lookup raises is missing.  Looking at an object may
run code and change others: an object here is an object at the moment it is looked at.  The
recursion limit of the interpreter is not modelled, so a chain of calls ends or is endless.
-/

namespace AgentlyStage

open Chase

/-! ## 1. Objects -/

/-- The answers of `_classify_task`. -/
inductive TaskClass where
  | stageFunc
  | asyncGenFunc
  | asyncGen
  | genFunc
  | gen
  | asyncFunc
  | asyncCoro
  | future
  | func
deriving DecidableEq, Repr

/-- The tests and attributes that `_classify_task` uses. -/
structure ObjectTests (Obj : Type) where
  isStageFunction : Obj → Bool
  /-- `isinstance(task, functools.partial)`. -/
  isPartial : Obj → Bool
  func : Obj → Option Obj
  /-- `isinstance(task, classmethod | staticmethod | types.MethodType)`. -/
  isMethod : Obj → Bool
  underFunc : Obj → Option Obj
  isAsyncGenFunction : Obj → Bool
  isAsyncGen : Obj → Bool
  isAsyncIterator : Obj → Bool
  isGeneratorFunction : Obj → Bool
  isGenerator : Obj → Bool
  isIterator : Obj → Bool
  isCoroutineFunction : Obj → Bool
  isCoroutine : Obj → Bool
  isFuture : Obj → Bool
  isFunction : Obj → Bool
  isBuiltin : Obj → Bool
  callable : Obj → Bool
  /-- `task.__call__`. -/
  call : Obj → Option Obj

namespace ObjectTests

variable {Obj : Type} (python : ObjectTests Obj)

/-- The tests that answer for the object itself, in the order of the source. -/
def directClass (task : Obj) : Option TaskClass :=
  if python.isAsyncGenFunction task then some .asyncGenFunc
  else if python.isAsyncGen task then some .asyncGen
  else if python.isAsyncIterator task then some .asyncGen
  else if python.isGeneratorFunction task then some .genFunc
  else if python.isGenerator task then some .gen
  else if python.isIterator task then some .gen
  else if python.isCoroutineFunction task then some .asyncFunc
  else if python.isCoroutine task then some .asyncCoro
  else if python.isFuture task then some .future
  else if python.isFunction task || python.isBuiltin task then some .func
  else none

/-- None of the tests before `callable` applies. -/
def unrecognised (task : Obj) : Bool :=
  !python.isStageFunction task && !python.isPartial task && !python.isMethod task &&
    (python.directClass task).isNone

end ObjectTests

/-- The objects of the interpreter.  A method-wrapper is callable and nothing else that the
    source tests for, and its `__call__` is again a method-wrapper. -/
structure PythonObjects (Obj : Type) extends ObjectTests Obj where
  isMethodWrapper : Obj → Bool
  methodWrapper_unrecognised : ∀ task, isMethodWrapper task → toObjectTests.unrecognised task
  methodWrapper_callable : ∀ task, isMethodWrapper task → callable task
  methodWrapper_call : ∀ task, isMethodWrapper task →
    ∃ wrapper, call task = some wrapper ∧ isMethodWrapper wrapper

/-! ## 2. The classification -/

/-- How a call of `_classify_task` that does not go on ends: with an answer, `None` among
    them, or with the exception of an attribute lookup. -/
inductive Classified where
  | answer (taskClass : Option TaskClass)
  | raises
deriving DecidableEq, Repr

/-- A call of itself on an attribute. -/
def Classified.recur {Obj : Type} : Option Obj → Classified ⊕ Obj
  | some found => .inr found
  | none => .inl .raises

namespace PythonObjects

variable {Obj : Type} (python : PythonObjects Obj)

/-- The body of `_classify_task`. -/
def classifyBody (task : Obj) : Classified ⊕ Obj :=
  if python.isStageFunction task then .inl (.answer (some .stageFunc))
  else if python.isPartial task then Classified.recur (python.func task)
  else if python.isMethod task then Classified.recur (python.underFunc task)
  else
    match python.directClass task with
    | some taskClass => .inl (.answer (some taskClass))
    | none =>
      if python.callable task then Classified.recur (python.call task)
      else .inl (.answer none)

/-- `_classify_task`, with at most so many calls of itself. -/
def classifyTask (calls : Nat) (task : Obj) : Option Classified :=
  chase python.classifyBody calls task

/-- What `go` does with the answer. -/
inductive GoBranch where
  | callStageFunction
  | stream (taskClass : TaskClass)
  | scalar
deriving DecidableEq, Repr

/-- The start of `Stage.go`; `None` is refused with a `TypeError`. -/
def goBranch : Option TaskClass → Option GoBranch
  | some .stageFunc => some .callStageFunction
  | some .asyncGenFunc => some (.stream .asyncGenFunc)
  | some .asyncGen => some (.stream .asyncGen)
  | some .genFunc => some (.stream .genFunc)
  | some .gen => some (.stream .gen)
  | some _ => some .scalar
  | none => none

/-- The classification of the task reaches an answer, and `go` accepts it when it is
    callable. -/
def Classifies (task : Obj) : Prop :=
  ∃ calls taskClass, python.classifyTask calls task = some (.answer taskClass) ∧
    (python.callable task = true → taskClass ≠ none ∧ goBranch taskClass ≠ none)

/-! ## 3. The objects inside a task -/

/-- The attribute that is looked up for the task, when one is. -/
def lookup (task : Obj) : Option (Option Obj) :=
  if python.isStageFunction task then none
  else if python.isPartial task then some (python.func task)
  else if python.isMethod task then some (python.underFunc task)
  else if (python.directClass task).isSome then none
  else if python.callable task then some (python.call task)
  else none

/-- The task is looked through: `inner` is the function of a partial or of a method, or the
    `__call__` of an object that none of the tests recognises. -/
def Wraps (task inner : Obj) : Prop := python.lookup task = some (some inner)

def Contains : Obj → Obj → Prop := Relation.ReflTransGen python.Wraps

/-- Neither a task nor a wrapper nor callable. -/
def Inert (task : Obj) : Prop :=
  python.unrecognised task = true ∧ python.callable task = false

/-- Looking inside the task goes on for ever without a method-wrapper: it contains itself, or
    makes a new wrapper at every look. -/
def Regress (task : Obj) : Prop :=
  ∃ f : Nat → Obj, f 0 = task ∧
    ∀ i, python.Wraps (f i) (f (i + 1)) ∧ python.isMethodWrapper (f i) = false

/-- What the wrappers of a task lead to. -/
structure Unwraps (task : Obj) : Prop where
  methodWrapper : ∀ inner, python.Contains task inner → python.isMethodWrapper inner = false
  regress : ¬ python.Regress task
  lookup : ∀ inner, python.Contains task inner → python.lookup inner ≠ some none
  callable : python.callable task = true →
    ∀ inner, python.Contains task inner → ¬ python.Inert inner

variable {python} {task inner : Obj}

/-- **The body of the classification.**  It recognises the task, looks inside it, or finds
    that it is inert. -/
theorem classifyBody_cases (python : PythonObjects Obj) (task : Obj) :
    (∃ taskClass, python.classifyBody task = .inl (.answer (some taskClass)) ∧
        python.lookup task = none ∧ ¬ python.Inert task) ∨
      (∃ found, python.classifyBody task = Classified.recur found ∧
        python.lookup task = some found ∧ ¬ python.Inert task) ∨
      (python.classifyBody task = .inl (.answer none) ∧ python.lookup task = none ∧
        python.Inert task) := by
  by_cases hstage : python.isStageFunction task = true
  · refine Or.inl ⟨.stageFunc, ?_, ?_, ?_⟩
    · rw [classifyBody, if_pos hstage]
    · rw [lookup, if_pos hstage]
    · simp [Inert, ObjectTests.unrecognised, hstage]
  by_cases hpartial : python.isPartial task = true
  · refine Or.inr (Or.inl ⟨python.func task, ?_, ?_, ?_⟩)
    · rw [classifyBody, if_neg hstage, if_pos hpartial]
    · rw [lookup, if_neg hstage, if_pos hpartial]
    · simp [Inert, ObjectTests.unrecognised, hpartial]
  by_cases hmethod : python.isMethod task = true
  · refine Or.inr (Or.inl ⟨python.underFunc task, ?_, ?_, ?_⟩)
    · rw [classifyBody, if_neg hstage, if_neg hpartial, if_pos hmethod]
    · rw [lookup, if_neg hstage, if_neg hpartial, if_pos hmethod]
    · simp [Inert, ObjectTests.unrecognised, hmethod]
  cases hdirect : python.directClass task with
  | some taskClass =>
    refine Or.inl ⟨taskClass, ?_, ?_, ?_⟩
    · rw [classifyBody, if_neg hstage, if_neg hpartial, if_neg hmethod, hdirect]
    · rw [lookup, if_neg hstage, if_neg hpartial, if_neg hmethod, hdirect]
      rfl
    · simp [Inert, ObjectTests.unrecognised, hdirect]
  | none =>
    have hlookup : python.lookup task =
        if python.callable task then some (python.call task) else none := by
      rw [lookup, if_neg hstage, if_neg hpartial, if_neg hmethod, hdirect]
      rfl
    rw [classifyBody, if_neg hstage, if_neg hpartial, if_neg hmethod, hdirect, hlookup]
    by_cases hcallable : python.callable task = true
    · refine Or.inr (Or.inl ⟨python.call task, ?_, if_pos hcallable, ?_⟩)
      · exact if_pos hcallable
      · exact fun h => Bool.eq_false_iff.mp h.2 hcallable
    · refine Or.inr (Or.inr ⟨if_neg hcallable, if_neg hcallable, ?_,
        Bool.eq_false_iff.mpr hcallable⟩)
      simp [ObjectTests.unrecognised, hstage, hpartial, hmethod, hdirect]

theorem handsOver_iff : HandsOver python.classifyBody task inner ↔ python.Wraps task inner := by
  unfold HandsOver Wraps
  rcases classifyBody_cases python task with ⟨c, hbody, hlookup, -⟩ | ⟨found, hbody, hlookup, -⟩ |
    ⟨hbody, hlookup, -⟩
  · rw [hbody, hlookup]
    constructor <;> rintro ⟨⟩
  · rw [hbody, hlookup]
    cases found with
    | none => constructor <;> rintro ⟨⟩
    | some found => simp [Classified.recur]
  · rw [hbody, hlookup]
    constructor <;> rintro ⟨⟩

theorem leads_iff : Leads python.classifyBody task inner ↔ python.Contains task inner := by
  have hsame : HandsOver python.classifyBody = python.Wraps := by
    funext x y
    exact propext handsOver_iff
  rw [Leads, Contains, hsame]

theorem raises_iff :
    python.classifyBody task = .inl .raises ↔ python.lookup task = some none := by
  rcases classifyBody_cases python task with ⟨c, hbody, hlookup, -⟩ | ⟨found, hbody, hlookup, -⟩ |
    ⟨hbody, hlookup, -⟩
  · rw [hbody, hlookup]
    constructor <;> rintro ⟨⟩
  · rw [hbody, hlookup]
    cases found with
    | none => simp [Classified.recur]
    | some found => simp [Classified.recur]
  · rw [hbody, hlookup]
    constructor <;> rintro ⟨⟩

theorem inert_iff : python.classifyBody task = .inl (.answer none) ↔ python.Inert task := by
  rcases classifyBody_cases python task with ⟨c, hbody, -, hinert⟩ | ⟨found, hbody, -, hinert⟩ |
    ⟨hbody, -, hinert⟩
  · rw [hbody]
    simp [hinert]
  · rw [hbody]
    cases found with
    | none => simp [Classified.recur, hinert]
    | some found => simp [Classified.recur, hinert]
  · simp [hbody, hinert]

/-! ## 4. When a task is classified -/

/-- A method-wrapper contains a method-wrapper. -/
theorem methodWrapper_wraps (h : python.isMethodWrapper task = true) :
    ∃ wrapper, python.Wraps task wrapper ∧ python.isMethodWrapper wrapper = true := by
  obtain ⟨wrapper, hcall, hwrapper⟩ := python.methodWrapper_call task h
  refine ⟨wrapper, ?_, hwrapper⟩
  have hunrecognised := python.methodWrapper_unrecognised task h
  simp only [ObjectTests.unrecognised, Bool.and_eq_true, Bool.not_eq_true',
    Option.isNone_iff_eq_none] at hunrecognised
  obtain ⟨⟨⟨hstage, hpartial⟩, hmethod⟩, hdirect⟩ := hunrecognised
  simp [Wraps, lookup, hstage, hpartial, hmethod, hdirect, hcall,
    python.methodWrapper_callable task h]

theorem endless_of_methodWrapper (h : python.isMethodWrapper task = true) :
    Endless python.classifyBody task :=
  endless_of_invariant (p := fun x => python.isMethodWrapper x = true)
    (fun _ hx => (methodWrapper_wraps hx).imp fun _ hy => ⟨handsOver_iff.mpr hy.1, hy.2⟩) h

/-- The chain of calls is endless when it comes to a method-wrapper or regresses. -/
theorem endless_iff : Endless python.classifyBody task ↔
    (∃ inner, python.Contains task inner ∧ python.isMethodWrapper inner = true) ∨
      python.Regress task := by
  constructor
  · rintro ⟨f, rfl, hover⟩
    by_cases h : ∃ i, python.isMethodWrapper (f i) = true
    · obtain ⟨i, hi⟩ := h
      exact Or.inl ⟨f i, leads_iff.mp (Endless.leads hover i), hi⟩
    · refine Or.inr ⟨f, rfl, fun i => ⟨handsOver_iff.mp (hover i), ?_⟩⟩
      exact Bool.eq_false_iff.mpr fun hi => h ⟨i, hi⟩
  · rintro (⟨inner, hinner, hwrapper⟩ | ⟨f, rfl, hf⟩)
    · exact (leads_iff.mpr hinner).endless (endless_of_methodWrapper hwrapper)
    · exact ⟨f, rfl, fun i => handsOver_iff.mpr (hf i).1⟩

theorem goBranch_eq_none {taskClass : Option TaskClass} :
    goBranch taskClass = none ↔ taskClass = none := by
  cases taskClass with
  | none => simp [goBranch]
  | some taskClass => cases taskClass <;> simp [goBranch]

/-- The classification ends at an object inside the task. -/
theorem classifies_iff_ends : python.Classifies task ↔
    ∃ inner taskClass, python.Contains task inner ∧
      python.classifyBody inner = .inl (.answer taskClass) ∧
      (python.callable task = true → ¬ python.Inert inner) := by
  constructor
  · rintro ⟨calls, taskClass, hanswer, hcallable⟩
    obtain ⟨inner, hleads, hbody⟩ := leads_of_chase hanswer
    refine ⟨inner, taskClass, leads_iff.mp hleads, hbody, fun h hinert => (hcallable h).1 ?_⟩
    have hnone := inert_iff.mpr hinert
    rw [hbody] at hnone
    cases hnone
    rfl
  · rintro ⟨inner, taskClass, hcontains, hbody, hcallable⟩
    obtain ⟨calls, hanswer⟩ := chase_of_leads (leads_iff.mpr hcontains) hbody
    have hne : python.callable task = true → taskClass ≠ none := by
      rintro h rfl
      exact hcallable h (inert_iff.mp hbody)
    exact ⟨calls, taskClass, hanswer, fun h => ⟨hne h, fun hgo => hne h (goBranch_eq_none.mp hgo)⟩⟩

/-- **When a task is classified.**  Exactly when the objects inside it lead to no
    method-wrapper, do not go on for ever, let their attributes be looked up and, when the
    task is callable, end at one that is recognised. -/
theorem classifies_iff (python : PythonObjects Obj) (task : Obj) :
    python.Classifies task ↔ python.Unwraps task := by
  rw [classifies_iff_ends]
  constructor
  · rintro ⟨inner, taskClass, hcontains, hbody, hcallable⟩
    have hleads := leads_iff.mpr hcontains
    have hends : ¬ Endless python.classifyBody task := by
      intro hendless
      obtain ⟨calls, hanswer⟩ := chase_of_leads hleads hbody
      exact hendless.not_answer hanswer
    rw [endless_iff, not_or] at hends
    refine ⟨fun x hx => Bool.eq_false_iff.mpr fun h => hends.1 ⟨x, hx, h⟩, hends.2,
      fun x hx hlookup => ?_, fun h x hx hinert => hcallable h ?_⟩
    · have hraises := raises_iff.mpr hlookup
      obtain rfl := end_unique hleads hbody (leads_iff.mpr hx) hraises
      rw [hbody] at hraises
      cases hraises
    · obtain rfl := end_unique hleads hbody (leads_iff.mpr hx) (inert_iff.mpr hinert)
      exact hinert
  · intro h
    rcases answers_or_endless python.classifyBody task with ⟨calls, answer, hanswer⟩ | hendless
    · obtain ⟨inner, hleads, hbody⟩ := leads_of_chase hanswer
      have hcontains := leads_iff.mp hleads
      cases answer with
      | answer taskClass =>
        exact ⟨inner, taskClass, hcontains, hbody, fun hc => h.callable hc inner hcontains⟩
      | raises => exact absurd (raises_iff.mp hbody) (h.lookup inner hcontains)
    · rcases endless_iff.mp hendless with ⟨inner, hcontains, hwrapper⟩ | hregress
      · rw [h.methodWrapper inner hcontains] at hwrapper
        cases hwrapper
      · exact absurd hregress h.regress

/-- What has a method-wrapper for its `__call__`, a class without its own among them, is not
    classified, nor is anything that wraps it. -/
theorem not_classifies_of_methodWrapper {wrapper : Obj} (hcontains : python.Contains task inner)
    (hwraps : python.Wraps inner wrapper) (h : python.isMethodWrapper wrapper = true) :
    ¬ python.Classifies task := by
  rw [classifies_iff]
  intro hunwraps
  rw [hunwraps.methodWrapper wrapper (hcontains.tail hwraps)] at h
  cases h

/-- Object 0 is a function, 1 the class `int`, and the others are method-wrappers: 2 is
    `int.__call__`, and the `__call__` of each is the next one. -/
def intObjects : PythonObjects Nat where
  isStageFunction _ := false
  isPartial _ := false
  func _ := none
  isMethod _ := false
  underFunc _ := none
  isAsyncGenFunction _ := false
  isAsyncGen _ := false
  isAsyncIterator _ := false
  isGeneratorFunction _ := false
  isGenerator _ := false
  isIterator _ := false
  isCoroutineFunction _ := false
  isCoroutine _ := false
  isFuture _ := false
  isFunction task := decide (task = 0)
  isBuiltin _ := false
  callable _ := true
  call task := some (task + 1)
  isMethodWrapper task := decide (2 ≤ task)
  methodWrapper_unrecognised task h := by
    have hne : task ≠ 0 := by
      rintro rfl
      cases h
    simp [ObjectTests.unrecognised, ObjectTests.directClass, hne]
  methodWrapper_callable _ _ := rfl
  methodWrapper_call task h := ⟨task + 1, rfl, by
    simp only [decide_eq_true_eq] at h ⊢
    omega⟩

/-- `Stage.go(int)`: the class is callable and its classification never ends. -/
theorem class_never_classified :
    intObjects.callable 1 = true ∧ (∀ calls, intObjects.classifyTask calls 1 = none) ∧
      ¬ intObjects.Classifies 1 := by
  have hcall : intObjects.Wraps 1 2 := rfl
  refine ⟨rfl, fun calls => ?_, not_classifies_of_methodWrapper .refl hcall rfl⟩
  have hendless : Endless intObjects.classifyBody 1 :=
    endless_iff.mpr (Or.inl ⟨2, .single hcall, rfl⟩)
  exact Option.eq_none_iff_forall_ne_some.mpr fun answer => hendless.not_answer

end PythonObjects

end AgentlyStage
