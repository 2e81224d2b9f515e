/-
This file follows a pool through the calls that are made to it. A log keeps each call with what it
answered. Main statement: whatever the calls are, two of them get one type exactly when they ask for
one structural shape or for one struct name, types keep their shapes, and the fields of a struct are
those that were set last.
-/

import TreeLowering.Proofs.Types.Pool

namespace TreeLowering.Tree

namespace TypeKind

/-- A shape without its fields, by which it is told from others. -/
def bare (kind : TypeKind) : TypeKind := TypePool.withFields [] kind

/-- A shape after its fields were set, if they were. -/
def refill (kind : TypeKind) : Option (List (Name × TypeId)) → TypeKind
  | some fields => TypePool.withFields fields kind
  | none => kind

variable {kind kind' : TypeKind} {fields : Option (List (Name × TypeId))}

@[simp] theorem bare_refill : (kind.refill fields).bare = kind.bare := by
  cases fields <;> cases kind <;> rfl

@[simp] theorem structName?_bare : kind.bare.structName? = kind.structName? :=
  structName?_withFields [] kind

theorem bare_of_plain (plain : kind.structName? = none) : kind.bare = kind :=
  withFields_of_plain plain []

/-- The fields that are set later count. -/
theorem refill_refill (fields later : Option (List (Name × TypeId))) :
    (kind.refill fields).refill later = kind.refill (later.or fields) := by
  cases later <;> cases fields <;> cases kind <;> rfl

end TypeKind

/-! ### Calls -/

/-- A call to one of the operations that build types. -/
inductive PoolCall where
  | reference (pointee : TypeId) (mutable : Bool)
  | array (elem : TypeId) (len : UInt64)
  | slice (elem : TypeId)
  | function (params : List TypeId) (ret : TypeId)
  | declareStruct (name : Name)
  | struct (name : Name) (fields : List (Name × TypeId))
  | defineFields (ty : TypeId) (fields : List (Name × TypeId))
deriving DecidableEq, Repr

namespace PoolCall

/-- The structural shape that a call asks for. -/
def shape? : PoolCall → Option TypeKind
  | reference pointee mutable => some (.reference pointee mutable)
  | array elem len => some (.array elem len)
  | slice elem => some (.slice elem)
  | function params ret => some (.function params ret)
  | _ => none

/-- The name of the struct that a call asks for. -/
def structName? : PoolCall → Option Name
  | declareStruct name | struct name _ => some name
  | _ => none

/-- What a call asks for, a struct without its fields. -/
def asked? (call : PoolCall) : Option TypeKind :=
  call.shape?.or (call.structName?.map fun name => .struct ⟨name, []⟩)

/-- What a call answers, and the pool it leaves. -/
def perform (pool : TypePool) : PoolCall → Option TypeId × TypePool
  | reference pointee mutable => (pool.reference pointee mutable).map some id
  | array elem len => (pool.array elem len).map some id
  | slice elem => (pool.slice elem).map some id
  | function params ret => (pool.function params ret).map some id
  | declareStruct name => (pool.declareStruct name).map some id
  | struct name fields => (pool.struct name fields).map some id
  | defineFields ty fields => (none, pool.defineFields ty fields)

/-- The fields that a call sets for `ty`, given what it answers. -/
def fieldsFor? (ty : TypeId) (answer : Option TypeId) : PoolCall → Option (List (Name × TypeId))
  | struct _ fields => if answer = some ty then some fields else none
  | defineFields target fields => if target = ty then some fields else none
  | _ => none

/-- Calls in order, each with what it answered. -/
abbrev Log := List (PoolCall × Option TypeId)

/-- The fields that were set last for `ty`. -/
def lastFields? (ty : TypeId) : Log → Option (List (Name × TypeId))
  | [] => none
  | (call, answer) :: later => (lastFields? ty later).or (call.fieldsFor? ty answer)

variable {call : PoolCall} {kind : TypeKind} {name : Name}

theorem asked_of_shape (asks : call.shape? = some kind) : call.asked? = some kind := by
  rw [asked?, asks, Option.some_or]

theorem asked_of_structName (asks : call.structName? = some name) :
    call.asked? = some (.struct ⟨name, []⟩) := by
  cases call <;> cases asks <;> rfl

theorem plain_of_shape (asks : call.shape? = some kind) : kind.structName? = none := by
  cases call <;> cases asks <;> rfl

/-- What is asked for has no fields yet. -/
theorem bare_of_asked (asks : call.asked? = some kind) : kind.bare = kind := by
  cases call <;> cases asks <;> rfl

theorem perform_of_shape (asks : call.shape? = some kind) (pool : TypePool) :
    call.perform pool = (some (pool.intern kind).1, (pool.intern kind).2) := by
  cases call <;> cases asks <;> rfl

theorem fieldsFor?_of_shape (asks : call.shape? = some kind) (ty : TypeId)
    (answer : Option TypeId) : call.fieldsFor? ty answer = none := by
  cases call <;> cases asks <;> rfl

end PoolCall

namespace TypePool

open PoolCall

variable {pool : TypePool} {kind kind' : TypeKind} {ty ty' : TypeId} {calls : List PoolCall}

/-- No two entries differ in their fields only. -/
theorem InStep.bare_unique (inStep : pool.InStep) (stored : pool.stored? ty = some kind)
    (stored' : pool.stored? ty' = some kind') (same : kind.bare = kind'.bare) : ty = ty' := by
  have names : kind.structName? = kind'.structName? := by
    rw [← TypeKind.structName?_bare, same, TypeKind.structName?_bare]
  cases named : kind.structName? with
  | some name => exact inStep.name_unique stored stored' named (names.symm.trans named)
  | none =>
    rw [TypeKind.bare_of_plain named, TypeKind.bare_of_plain (names.symm.trans named)] at same
    subst same
    exact inStep.shape_unique named stored stored'

/-! ### One call -/

/-- What a call does. What it asks for is found, or added at the end; what was there before stays,
but for the fields that the call sets. -/
structure Performs (call : PoolCall) (pool : TypePool) (answer : Option TypeId)
    (next : TypePool) : Prop where
  made : next.Made
  keeps : ∀ ty kind, pool.stored? ty = some kind →
    next.stored? ty = some (kind.refill (call.fieldsFor? ty answer))
  silent : call.asked? = none → answer = none ∧ next.size = pool.size
  answers : ∀ kind, call.asked? = some kind → ∃ ty, answer = some ty ∧
    ((next.size = pool.size ∧ ∃ stored, pool.stored? ty = some stored ∧ stored.bare = kind) ∨
      (next.size = pool.size + 1 ∧ ty.index = pool.size ∧
        next.stored? ty = some (kind.refill (call.fieldsFor? ty answer))))

theorem size_push (pool : TypePool) (kind : TypeKind) :
    (pool.push kind).2.size = pool.size + 1 := by
  simp [push, size]

theorem Made.performs_shape (made : pool.Made) {call : PoolCall}
    (asks : call.shape? = some kind) :
    Performs call pool (some (pool.intern kind).1) (pool.intern kind).2 := by
  have plain := plain_of_shape asks
  refine ⟨made.intern (TypeKind.structName?_eq_none.1 plain), fun ty old stored => ?_,
    fun quiet => ?_, fun kind' asks' => ⟨_, rfl, ?_⟩⟩
  · rw [fieldsFor?_of_shape asks]
    exact entry_intern_of_some stored kind
  · cases (asked_of_shape asks).symm.trans quiet
  · cases (asked_of_shape asks).symm.trans asks'
    rw [fieldsFor?_of_shape asks]
    cases found : pool.interned.lookup kind with
    | some known =>
      rw [intern_of_known found]
      obtain ⟨stored, _⟩ := (made.inStep.shapes kind known).1 found
      exact .inl ⟨rfl, kind, stored, TypeKind.bare_of_plain plain⟩
    | none =>
      rw [intern_of_missing found]
      exact .inr ⟨size_push pool kind, rfl, (stored?_push pool kind _).trans (if_pos rfl)⟩

theorem Made.performs_declareStruct (made : pool.Made) (name : Name) :
    Performs (.declareStruct name) pool (some (pool.declareStruct name).1)
      (pool.declareStruct name).2 := by
  refine ⟨made.declareStruct name, fun ty old stored => entry_declareStruct_of_some stored name,
    nofun, fun kind asks => ⟨_, rfl, ?_⟩⟩
  cases asks
  cases found : pool.structByName? name with
  | some known =>
    rw [declareStruct_of_known found]
    obtain ⟨stored, inside, named⟩ :=
      Option.bind_eq_some_iff.1 ((made.inStep.names name known).1 found)
    obtain ⟨fields, rfl⟩ := TypeKind.eq_struct_of_structName? named
    exact .inl ⟨rfl, _, inside, rfl⟩
  | none =>
    rw [declareStruct_of_missing found]
    exact .inr ⟨size_push pool _, rfl, (stored?_push pool _ _).trans (if_pos rfl)⟩

/-- Declaring a struct and setting its fields at once is doing both in turn. -/
theorem Made.performs_struct (made : pool.Made) (name : Name) (fields : List (Name × TypeId)) :
    Performs (.struct name fields) pool (some (pool.struct name fields).1)
      (pool.struct name fields).2 := by
  have declares := made.performs_declareStruct name
  have result : pool.struct name fields = ((pool.declareStruct name).1,
      (pool.declareStruct name).2.defineFields (pool.declareStruct name).1 fields) := rfl
  rw [result]
  have later : ∀ ty kind, (pool.declareStruct name).2.stored? ty = some kind →
      ((pool.declareStruct name).2.defineFields (pool.declareStruct name).1 fields).stored? ty =
        some (kind.refill
          ((PoolCall.struct name fields).fieldsFor? ty (some (pool.declareStruct name).1))) := by
    intro ty kind stored
    rw [stored?_defineFields, stored, fieldsFor?]
    simp only [Option.some.injEq]
    split <;> rfl
  refine ⟨declares.made.defineFields _ fields, fun ty kind stored =>
    later ty kind (declares.keeps ty kind stored), nofun, fun kind asks => ⟨_, rfl, ?_⟩⟩
  obtain ⟨ty, given, found | ⟨grown, last, stored⟩⟩ := declares.answers kind asks
  · cases given
    exact .inl ⟨(size_defineFields _ _ _).trans found.1, found.2⟩
  · cases given
    exact .inr ⟨(size_defineFields _ _ _).trans grown, last, later _ kind stored⟩

theorem Made.performs (made : pool.Made) (call : PoolCall) :
    Performs call pool (call.perform pool).1 (call.perform pool).2 := by
  cases asks : call.shape? with
  | some kind =>
    rw [perform_of_shape asks]
    exact made.performs_shape asks
  | none =>
    cases call with
    | declareStruct name => exact made.performs_declareStruct name
    | struct name fields => exact made.performs_struct name fields
    | defineFields target fields =>
      refine ⟨made.defineFields target fields, fun ty kind stored => ?_,
        fun _ => ⟨rfl, size_defineFields pool target fields⟩, nofun⟩
      show (pool.defineFields target fields).stored? ty = _
      rw [stored?_defineFields, stored, fieldsFor?]
      split <;> rfl
    | _ => cases asks

/-! ### Many calls -/

/-- The log of a run of calls, and the pool it leaves. -/
def run (pool : TypePool) : List PoolCall → Log × TypePool
  | [] => ([], pool)
  | call :: rest =>
    let (answer, next) := call.perform pool
    let (log, last) := next.run rest
    ((call, answer) :: log, last)

theorem Made.run (made : pool.Made) (calls : List PoolCall) : (pool.run calls).2.Made := by
  induction calls generalizing pool with
  | nil => exact made
  | cons call rest inductionHypothesis => exact inductionHypothesis (made.performs call).made

/-- A type keeps its shape, and a struct gets the fields that are set last. -/
theorem Made.run_keeps (made : pool.Made) (calls : List PoolCall)
    (stored : pool.stored? ty = some kind) :
    (pool.run calls).2.stored? ty = some (kind.refill (lastFields? ty (pool.run calls).1)) := by
  induction calls generalizing pool kind with
  | nil => exact stored
  | cons call rest inductionHypothesis =>
    have performs := made.performs call
    have kept := inductionHypothesis performs.made (performs.keeps ty kind stored)
    rw [TypeKind.refill_refill] at kept
    exact kept

/-- Whoever asked for something has got it. -/
theorem Made.run_answers (made : pool.Made) {call : PoolCall} {answer : Option TypeId}
    (logged : (call, answer) ∈ (pool.run calls).1) (asks : call.asked? = some kind) :
    ∃ ty stored, answer = some ty ∧ (pool.run calls).2.stored? ty = some stored ∧
      stored.bare = kind := by
  induction calls generalizing pool with
  | nil => cases logged
  | cons first rest inductionHypothesis =>
    have performs := made.performs first
    rcases List.mem_cons.1 logged with here | later
    · cases here
      obtain ⟨ty, given, ⟨_, stored, inside, same⟩ | ⟨_, _, inside⟩⟩ := performs.answers kind asks
      · have kept := performs.made.run_keeps rest (performs.keeps ty stored inside)
        exact ⟨ty, _, given, kept, by rw [TypeKind.bare_refill, TypeKind.bare_refill, same]⟩
      · have kept := performs.made.run_keeps rest inside
        refine ⟨ty, _, given, kept, ?_⟩
        rw [TypeKind.bare_refill, TypeKind.bare_refill, bare_of_asked asks]
    · exact inductionHypothesis performs.made later

/-- Two calls get one type exactly when they ask for the same. -/
theorem Made.run_same_iff (made : pool.Made) {call call' : PoolCall} {answer answer' : Option TypeId}
    (logged : (call, answer) ∈ (pool.run calls).1) (logged' : (call', answer') ∈ (pool.run calls).1)
    (asks : call.asked? = some kind) (asks' : call'.asked? = some kind') :
    answer = answer' ↔ kind = kind' := by
  obtain ⟨ty, stored, rfl, inside, rfl⟩ := made.run_answers logged asks
  obtain ⟨ty', stored', rfl, inside', rfl⟩ := made.run_answers logged' asks'
  refine ⟨fun same => ?_, fun same => ?_⟩
  · cases same
    cases inside.symm.trans inside'
    rfl
  · rw [(made.run calls).inStep.bare_unique inside inside' same]

/-- What was not there before was asked for, and it has the fields set last since then. -/
theorem Made.run_origin (made : pool.Made) (stored : (pool.run calls).2.stored? ty = some kind)
    (new : pool.size ≤ ty.index) :
    ∃ earlier call later asked, (pool.run calls).1 = earlier ++ (call, some ty) :: later ∧
      call.asked? = some asked ∧ (∀ entry ∈ earlier, entry.2 ≠ some ty) ∧
        kind = asked.refill (lastFields? ty ((call, some ty) :: later)) := by
  induction calls generalizing pool with
  | nil => exact absurd (inside_of_entry stored) (Nat.not_lt.2 new)
  | cons call rest inductionHypothesis =>
    have performs := made.performs call
    by_cases still : (call.perform pool).2.size ≤ ty.index
    · obtain ⟨earlier, source, later, asked, split, asks, before, same⟩ :=
        inductionHypothesis performs.made stored still
      refine ⟨(call, (call.perform pool).1) :: earlier, source, later, asked,
        congrArg (List.cons _) split, asks, fun entry member => ?_, same⟩
      rcases List.mem_cons.1 member with rfl | member
      · -- the answer of this call is in the pool it leaves, which does not reach as far as `ty`
        intro given
        cases asks' : call.asked? with
        | none => cases (performs.silent asks').1.symm.trans given
        | some other =>
          obtain ⟨ty', given', ⟨size, _, inside, _⟩ | ⟨size, last, _⟩⟩ := performs.answers other asks'
          · cases given.symm.trans given'
            have := inside_of_entry inside
            omega
          · cases given.symm.trans given'
            omega
      · exact before entry member
    · cases asks : call.asked? with
      | none =>
        have := (performs.silent asks).2
        omega
      | some asked =>
        obtain ⟨ty', given, ⟨size, _⟩ | ⟨size, last, inside⟩⟩ := performs.answers asked asks
        · omega
        · obtain rfl : ty = ty' := by
            obtain ⟨index⟩ := ty
            obtain ⟨index'⟩ := ty'
            congr 1
            dsimp only at *
            omega
          have kept := performs.made.run_keeps rest inside
          rw [given, TypeKind.refill_refill] at kept
          refine ⟨[], call, ((call.perform pool).2.run rest).1, asked, ?_, asks, nofun, ?_⟩
          · rw [List.nil_append, ← given]
            rfl
          · exact Option.some.inj (stored.symm.trans kept)

/-! ### The laws of a pool -/

/-- What holds of a pool and of the log of the calls that were made to it. -/
structure Canonical (pool : TypePool) (log : Log) : Prop where
  primitives : ∀ ty : TypeId, ty.isPrimitive = true → pool.kind ty = initial.kind ty
  /-- Whatever is called next, a type keeps its shape, but for the fields of a struct. -/
  lasting : ∀ more ty, ty.index < pool.size → (pool.run more).2.kind ty =
    (pool.kind ty).refill (lastFields? ty (pool.run more).1)
  /-- Who asks for a type gets one of the shape it asks for. -/
  answers : ∀ entry ∈ log, ∀ kind, entry.1.asked? = some kind →
    ∃ ty, entry.2 = some ty ∧ ty.index < pool.size ∧ (pool.kind ty).bare = kind
  structural : ∀ entry ∈ log, ∀ entry' ∈ log, ∀ kind kind', entry.1.shape? = some kind →
    entry'.1.shape? = some kind' → (entry.2 = entry'.2 ↔ kind = kind')
  nominal : ∀ entry ∈ log, ∀ entry' ∈ log, ∀ name name', entry.1.structName? = some name →
    entry'.1.structName? = some name' → (entry.2 = entry'.2 ↔ name = name')
  apart : ∀ entry ∈ log, ∀ entry' ∈ log, ∀ kind name, entry.1.shape? = some kind →
    entry'.1.structName? = some name → entry.2 ≠ entry'.2
  /-- A struct was declared by the first call that asked for its name, and it has the fields that
  were set last since then. -/
  fields : ∀ ty definition, pool.kind ty = .struct definition → ∃ earlier call later,
    log = earlier ++ (call, some ty) :: later ∧ call.structName? = some definition.name ∧
      (∀ entry ∈ earlier, entry.1.structName? ≠ some definition.name) ∧
        definition.fields = (lastFields? ty ((call, some ty) :: later)).getD []
  /-- The pool grows by one entry, which is the answer, or not at all. -/
  growth : ∀ (call : PoolCall) ty, (call.perform pool).1 = some ty →
    if ty.index < pool.size then (call.perform pool).2.size = pool.size
    else ty.index = pool.size ∧ (call.perform pool).2.size = pool.size + 1

theorem Made.grows (made : pool.Made) {call : PoolCall} (given : (call.perform pool).1 = some ty) :
    if ty.index < pool.size then (call.perform pool).2.size = pool.size
    else ty.index = pool.size ∧ (call.perform pool).2.size = pool.size + 1 := by
  have performs := made.performs call
  cases asks : call.asked? with
  | none => cases (performs.silent asks).1.symm.trans given
  | some kind =>
    obtain ⟨ty', given', ⟨size, _, inside, _⟩ | ⟨size, last, _⟩⟩ := performs.answers kind asks
    · cases given.symm.trans given'
      rw [if_pos (inside_of_entry inside)]
      exact size
    · cases given.symm.trans given'
      rw [if_neg (Nat.not_lt.2 (Nat.le_of_eq last.symm))]
      exact ⟨last, size⟩

/-- The primitive types are left alone by every call. -/
theorem run_primitive (calls : List PoolCall) (primitive : ty.isPrimitive = true) :
    (initial.run calls).2.kind ty = initial.kind ty := by
  have listed : ∀ index : Fin 11, initial.stored? ⟨index⟩ = some (initial.kind ⟨index⟩) ∧
      (initial.kind ⟨index⟩).structName? = none := by decide
  obtain ⟨stored, plain⟩ := listed ⟨ty.index, of_decide_eq_true primitive⟩
  have kept := Made.initial.run_keeps calls stored
  refine kind_of_entry (kept.trans ?_)
  cases lastFields? ty (initial.run calls).1 with
  | none => rfl
  | some fields => exact congrArg some (TypeKind.withFields_of_plain plain fields)

/-- A struct comes from the first call that asked for its name. -/
theorem run_struct {definition : StructDef}
    (found : (initial.run calls).2.kind ty = .struct definition) :
    ∃ earlier call later, (initial.run calls).1 = earlier ++ (call, some ty) :: later ∧
      call.structName? = some definition.name ∧
      (∀ entry ∈ earlier, entry.1.structName? ≠ some definition.name) ∧
        definition.fields = (lastFields? ty ((call, some ty) :: later)).getD [] := by
  have stored := entry_of_kind found nofun
  have new : initial.size ≤ ty.index := by
    refine Nat.not_lt.1 fun old => ?_
    have plain : ∀ index : Fin 11, (initial.kind ⟨index⟩).structName? = none := by decide
    have none := plain ⟨ty.index, old⟩
    rw [← run_primitive calls (decide_eq_true old), found] at none
    cases none
  obtain ⟨earlier, call, later, asked, split, asks, before, same⟩ :=
    Made.initial.run_origin stored new
  cases named : call.structName? with
  | none =>
    have shape : call.shape? = some asked := by
      rwa [asked?, named, Option.map_none, Option.or_none] at asks
    have bare := congrArg TypeKind.bare same
    rw [TypeKind.bare_refill, TypeKind.bare_of_plain (plain_of_shape shape)] at bare
    cases bare ▸ plain_of_shape shape
  | some name =>
    cases (asked_of_structName named).symm.trans asks
    obtain ⟨rfl, fields⟩ : definition.name = name ∧
        definition.fields = (lastFields? ty ((call, some ty) :: later)).getD [] := by
      cases last : lastFields? ty ((call, some ty) :: later) with
      | none =>
        rw [last] at same
        cases same
        exact ⟨rfl, rfl⟩
      | some fields =>
        rw [last] at same
        cases same
        exact ⟨rfl, rfl⟩
    refine ⟨earlier, call, later, split, named, fun entry member again => ?_, fields⟩
    have logged : entry ∈ (initial.run calls).1 := split ▸ List.mem_append_left _ member
    have logged' : (call, some ty) ∈ (initial.run calls).1 :=
      split ▸ List.mem_append_right _ List.mem_cons_self
    exact before entry member ((Made.initial.run_same_iff logged logged'
      (asked_of_structName again) (asked_of_structName named)).2 rfl)

/-- However types are asked for, declared and given fields, starting from the primitive types: two
calls get one type exactly when they ask for one structural shape or for one struct name, no
structural type is a struct, types keep their shapes, structs have the fields that were set last,
and the pool grows only by what is new. -/
theorem run_canonical (calls : List PoolCall) :
    (initial.run calls).2.Canonical (initial.run calls).1 where
  primitives _ primitive := run_primitive calls primitive
  lasting more _ inside := kind_of_entry
    ((Made.initial.run calls).run_keeps more (stored?_eq_some_iff.2 ⟨inside, rfl⟩))
  answers entry logged kind asks := by
    obtain ⟨ty, stored, given, inside, same⟩ := Made.initial.run_answers logged asks
    exact ⟨ty, given, inside_of_entry inside, kind_of_entry inside ▸ same⟩
  structural entry logged entry' logged' kind kind' asks asks' :=
    Made.initial.run_same_iff logged logged' (asked_of_shape asks) (asked_of_shape asks')
  nominal entry logged entry' logged' name name' asks asks' := by
    rw [Made.initial.run_same_iff logged logged' (asked_of_structName asks)
      (asked_of_structName asks')]
    simp
  apart entry logged entry' logged' kind name asks asks' same := by
    have equal := (Made.initial.run_same_iff logged logged' (asked_of_shape asks)
      (asked_of_structName asks')).1 same
    cases equal ▸ plain_of_shape asks
  fields _ _ found := run_struct found
  growth _ _ given := (Made.initial.run calls).grows given

/-- A struct that mentions itself: asked for again, it is the same type. -/
example : (initial.run [.declareStruct ⟨5⟩, .reference ⟨11⟩ false, .defineFields ⟨11⟩ [(⟨6⟩, ⟨12⟩)],
    .declareStruct ⟨5⟩]).1.map Prod.snd = [some ⟨11⟩, some ⟨12⟩, none, some ⟨11⟩] := by decide

end TypePool

end TreeLowering.Tree
