/-
This file says what a program declares before its first body is lowered. The functions of the module
are those of the program in source order, without bodies, and the globals are its constants; every
struct that their types mention is declared in full. When no two functions and no two constants share
a name, declaring fails only for want of room.
-/

import TreeLowering.Proofs.Pair.Program
import TreeLowering.Proofs.Types.Closed

namespace TreeLowering.Tree

/-- The constant that an item declares. -/
def Item.const? : Item → Option ConstDecl
  | const decl => some decl
  | _ => none

/-- All declared constants in source order. -/
def Program.consts (program : Program) : List ConstDecl := program.items.filterMap Item.const?

end TreeLowering.Tree

namespace TreeLowering.Ir

/-! ### Functions without their bodies -/

/-- The function without its body. -/
def Function.bare (function : Function) : Function := { function with blocks := #[] }

theorem Function.bare_withEntry (function : Function) : function.withEntry.bare = function.bare := by
  unfold Function.withEntry
  split <;> rfl

theorem Function.name_eq_of_bare {first second : Function} (same : first.bare = second.bare) :
    first.name = second.name := (Function.mk.inj same).1

namespace Module

variable {target : Module}

/-- What the module says about its functions, apart from their bodies. -/
def signatures (target : Module) : List Function := target.functions.toList.map Function.bare

theorem getElem?_signatures (target : Module) (func : FuncId) :
    target.signatures[func.index]? = (target.function? func).map Function.bare := by
  rw [signatures, List.getElem?_map, Array.getElem?_toList]
  rfl

theorem function?_of_signatures {func : FuncId} {function : Function}
    (found : target.signatures[func.index]? = some function) :
    ∃ stored, target.function? func = some stored ∧ stored.bare = function :=
  Option.map_eq_some_iff.1 ((getElem?_signatures target func).symm.trans found)

/-- The function that a search by name finds has that name. -/
theorem getElem?_of_functionId? {name : String} {func : FuncId}
    (known : target.functionId? name = some func) :
    ∃ function, target.signatures[func.index]? = some function ∧ function.name = name := by
  obtain ⟨function, found, named⟩ := functionId?_eq_some_iff.1 known
  exact ⟨function.bare, by rw [getElem?_signatures, found]; rfl, named⟩

/-- A function of the module is found by its name. -/
theorem functionId?_of_mem {function : Function} (member : function ∈ target.signatures) :
    ∃ func, target.functionId? function.name = some func := by
  obtain ⟨index, found⟩ := List.getElem?_of_mem member
  obtain ⟨stored, here, rfl⟩ := @function?_of_signatures _ ⟨index⟩ _ found
  exact ⟨⟨index⟩, (functionId?_of_found here : target.functionId? stored.name = _)⟩

/-- A name that no function has stands for nothing. -/
theorem functionId?_of_unnamed {name : String}
    (missing : ∀ function ∈ target.signatures, function.name ≠ name) :
    target.functionId? name = none := by
  cases known : target.functionId? name with
  | none => rfl
  | some func =>
    obtain ⟨function, found, named⟩ := getElem?_of_functionId? known
    exact absurd named (missing function (List.mem_of_getElem? found))

theorem signatures_addFunction {function : Function}
    (missing : target.functionId? function.name = none) :
    (target.addFunction function missing).signatures = target.signatures ++ [function.bare] := by
  show (target.functions.push function).toList.map Function.bare = _
  rw [Array.toList_push, List.map_append, signatures]
  rfl

theorem length_signatures (target : Module) : target.signatures.length = target.functions.size := by
  rw [signatures, List.length_map, Array.length_toList]

theorem signatures_modifyFunction (func : FuncId) (change : Function → Function)
    (keeps : ∀ function, (change function).bare = function.bare) :
    (target.modifyFunction func change fun function =>
      Function.name_eq_of_bare (keeps function)).signatures = target.signatures := by
  refine List.ext_getElem? fun index => ?_
  have here := getElem?_signatures (target.modifyFunction func change fun function =>
    Function.name_eq_of_bare (keeps function)) ⟨index⟩
  rw [function?_modifyFunction] at here
  rw [here, getElem?_signatures target ⟨index⟩]
  split
  · rw [Option.map_map]
    exact congrArg (Option.map · _) (funext keeps)
  · rfl

theorem signatures_modifyBlock (func : FuncId) (id : BlockId) (change : Block → Block) :
    (target.modifyBlock func id change).signatures = target.signatures :=
  signatures_modifyFunction func (fun function => function.modifyBlock id change) fun _ => rfl

end Module

end TreeLowering.Ir

namespace TreeLowering.Lowering

open TreeLowering.Ir TreeLowering.Tree

/-! ### Declared programs -/

/-- What a function is declared as. -/
def Source.signature (source : Source) (decl : FunctionDecl) : Function :=
  .declared (source.names.text decl.link)
    (decl.params.map fun param => ⟨source.names.text param.name, source.translation param.ty⟩)
    (source.translation decl.ret)

/-- What a constant is declared as. -/
def Source.global (source : Source) (decl : ConstDecl) : Global :=
  ⟨source.names.text decl.name, source.translation decl.ty, foldedConstant decl.value⟩

/-- The module declares these functions in this order, and others behind them; its globals are these
constants. Their types are known. -/
structure Canonical (source : Source) (decls : List FunctionDecl) (consts : List ConstDecl)
    (others : List Function) (work : Work) : Prop where
  types : TypeState.Complete source ⟨work.memo, work.builder.target⟩
  functions : work.builder.target.signatures = decls.map source.signature ++ others
  globals : work.builder.target.globals.toList = consts.map source.global
  typed : ∀ decl ∈ decls, (source.signature decl).signature.Within work.builder.target.Knows
  held : ∀ decl ∈ consts, (source.translation decl.ty).Within work.builder.target.Knows

namespace Canonical

variable {source : Source} {decls : List FunctionDecl} {consts : List ConstDecl}
  {others : List Function} {work : Work}

/-- A step of the type mapping adds struct types only. -/
theorem mapped (canonical : Canonical source decls consts others work) {after : TypeState}
    (complete : after.Complete source)
    (only : OnlyTypes ⟨work.memo, work.builder.target⟩ after)
    (knows : ∀ name, work.builder.target.Knows name → after.target.Knows name) :
    Canonical source decls consts others (work.mapped after) := by
  obtain ⟨_, functions, globals, typed, held⟩ := canonical
  refine ⟨complete, ?_, ?_, fun decl member => (typed decl member).mono knows,
    fun decl member => (held decl member).mono knows⟩
  · rw [← functions]
    exact congrArg (fun functions => functions.toList.map Function.bare) only.functions
  · rw [← globals]
    exact congrArg Array.toList only.globals

/-- Steps of the builder that leave types and globals alone and declare nothing. -/
theorem built (canonical : Canonical source decls consts others work) {builder : Builder}
    (types : builder.target.types = work.builder.target.types)
    (globals : builder.target.globals = work.builder.target.globals)
    (functions : builder.target.signatures = work.builder.target.signatures) :
    Canonical source decls consts others { work with builder } := by
  have knows : ∀ name, work.builder.target.Knows name → builder.target.Knows name :=
    fun _ known => known.of_types types
  exact ⟨canonical.types.of_types types, functions.trans canonical.functions,
    (congrArg Array.toList globals).trans canonical.globals,
    fun decl member => (canonical.typed decl member).mono knows,
    fun decl member => (canonical.held decl member).mono knows⟩

end Canonical

/-! ### Declaring -/

section Declaring

variable {source : Source} {decls : List FunctionDecl} {consts : List ConstDecl}
  {context : Context}

theorem Canonical.lowerType (formed : source.WellFormed) {others : List Function}
    (canonical : Canonical source decls consts others context.work) (ty : TypeId) :
    Ends (lowerType source ty) context
      (fun mapped after => Canonical source decls consts others after.work ∧
        mapped = source.translation ty ∧ mapped.Within after.builder.target.Knows ∧
        ∀ name, context.builder.target.Knows name → after.builder.target.Knows name)
      fun _ _ => False := by
  have ended := canonical.types.mapType formed.mappable ty
  unfold Ends Lowering.lowerType mapping at *
  cases returned : mapType source ty ⟨context.memo, context.builder.target⟩ with
  | error cause after =>
    rw [Context.work, returned] at ended
    exact ended
  | ok mapped after =>
    rw [Context.work, returned] at ended
    obtain ⟨complete, right, within, only, knows⟩ := ended
    exact ⟨canonical.mapped complete only knows, right, within, knows⟩

/-- A constant with a new name is declared. -/
theorem Canonical.declareConst (formed : source.WellFormed) {decl : ConstDecl}
    (canonical : Canonical source decls consts [] context.work)
    (fresh : ∀ other ∈ consts, source.names.text other.name ≠ source.names.text decl.name) :
    Ends (declareConst source decl) context
      (fun _ after => Canonical source decls (consts ++ [decl]) [] after.work) fun _ _ => False := by
  unfold Lowering.declareConst
  rw [ends_bind]
  refine (canonical.lowerType formed decl.ty).mono ?_ fun _ _ => id
  rintro _ after ⟨canonical', rfl, within, _⟩
  have missing : after.builder.target.global? (source.names.text decl.name) = none := by
    rw [Module.global?_eq_find?, ← Array.find?_toList]
    refine List.find?_eq_none.2 fun global member => ?_
    obtain ⟨other, listed, rfl⟩ := List.mem_map.1 (canonical'.globals ▸ member)
    simpa [Source.global] using fresh other listed
  have declared : after.builder.target.declareGlobal (source.global decl) =
      .ok (source.global decl).address
        (after.builder.target.addGlobal (source.global decl) missing) :=
    Module.declareGlobal_of_missing missing
  change Ends (build (Build.declare fun target => target.declareGlobal (source.global decl))) after
    _ _
  unfold Ends
  rw [build_ok (by rw [Build.declare, declared])]
  obtain ⟨types, functions, globals, typed, held⟩ := canonical'
  refine ⟨types.of_types rfl, functions, ?_, typed, fun other listed => ?_⟩
  · show (after.builder.target.globals.push _).toList = _
    rw [Array.toList_push, List.map_append]
    exact congrArg (· ++ _) globals
  · rcases List.mem_append.1 listed with earlier | last
    · exact held other earlier
    · obtain rfl := List.mem_singleton.1 last
      exact within

theorem Canonical.declareItem (formed : source.WellFormed) {item : Item}
    (canonical : Canonical source decls consts [] context.work)
    (fresh : ∀ decl ∈ item.const?, ∀ other ∈ consts,
      source.names.text other.name ≠ source.names.text decl.name) :
    Ends (declareItem source item) context
      (fun _ after => Canonical source decls (consts ++ item.const?.toList) [] after.work)
      fun _ _ => False := by
  cases item with
  | const decl => exact (canonical.declareConst formed (fresh decl rfl)).discard
  | struct decl =>
    refine ((canonical.lowerType formed decl.ty).mono (fun _ after kept => ?_) fun _ _ => id).discard
    exact (List.append_nil consts).symm ▸ kept.1
  | function decl => exact (List.append_nil consts).symm ▸ canonical
  | methods group => exact (List.append_nil consts).symm ▸ canonical

/-- Structs and constants are declared. -/
theorem Canonical.declareItems (formed : source.WellFormed) {items : List Item}
    (canonical : Canonical source decls consts [] context.work)
    (apart : ((consts ++ items.filterMap Item.const?).map fun decl =>
      source.names.text decl.name).Nodup) :
    Ends (items.forM (Lowering.declareItem source)) context
      (fun _ after => Canonical source decls (consts ++ items.filterMap Item.const?) [] after.work)
      fun _ _ => False := by
  induction items generalizing consts context with
  | nil => exact (List.append_nil consts).symm ▸ canonical
  | cons item rest inductionHypothesis =>
    have split : consts ++ (item :: rest).filterMap Item.const? =
        (consts ++ item.const?.toList) ++ rest.filterMap Item.const? := by
      rw [List.append_assoc, List.filterMap_cons]
      cases item.const? <;> rfl
    rw [split] at apart ⊢
    show Ends (Lowering.declareItem source item >>= fun _ =>
      rest.forM (Lowering.declareItem source)) context _ _
    rw [ends_bind]
    refine (canonical.declareItem formed fun decl given other listed same => ?_).mono
      (fun _ after canonical' => inductionHypothesis canonical' apart) fun _ _ => id
    rw [List.map_append, List.map_append, List.append_assoc] at apart
    have differ := (List.nodup_append.1 apart).2.2
    exact differ _ (List.mem_map_of_mem listed) _ (List.mem_append_left _ (List.mem_map_of_mem
      (Option.mem_toList.2 given))) same

theorem Canonical.lowerParams (formed : source.WellFormed) {others : List Function}
    (canonical : Canonical source decls consts others context.work) (params : List Tree.Param) :
    Ends (params.mapM fun param => do
        return Ir.Param.mk (source.names.text param.name) (← Lowering.lowerType source param.ty)) context
      (fun mapped after => Canonical source decls consts others after.work ∧
        mapped = params.map (fun param =>
          ⟨source.names.text param.name, source.translation param.ty⟩) ∧
        (∀ param ∈ mapped, param.ty.Within after.builder.target.Knows) ∧
        ∀ name, context.builder.target.Knows name → after.builder.target.Knows name)
      fun _ _ => False := by
  induction params generalizing context with
  | nil => exact ⟨canonical, rfl, nofun, fun _ => id⟩
  | cons param rest inductionHypothesis =>
    rw [List.mapM_cons, ends_bind, ends_bind]
    refine (canonical.lowerType formed param.ty).mono ?_ fun _ _ => id
    rintro _ middle ⟨canonical', rfl, within, knows⟩
    change Ends (List.mapM _ rest >>= _) middle _ _
    rw [ends_bind]
    refine (inductionHypothesis canonical').mono ?_ fun _ _ => id
    rintro mapped after ⟨canonical'', rfl, withins, knows'⟩
    refine ⟨canonical'', rfl, fun param member => ?_, fun name known => knows' name (knows name known)⟩
    rcases List.mem_cons.1 member with rfl | member
    · exact within.mono knows'
    · exact withins param member

/-- A function with a new name is declared when there is room. -/
theorem Canonical.declareFn (formed : source.WellFormed) {decl : FunctionDecl}
    (canonical : Canonical source decls consts [] context.work)
    (fresh : ∀ other ∈ decls, source.names.text other.link ≠ source.names.text decl.link) :
    Ends (declareFn source decl) context
      (fun func after => Canonical source (decls ++ [decl]) consts [] after.work ∧
        func = ⟨decls.length⟩ ∧ decls.length < idLimit) fun _ _ => idLimit ≤ decls.length := by
  unfold Lowering.declareFn
  rw [ends_bind]
  refine (canonical.lowerParams formed decl.params).mono ?_ fun _ _ => False.elim
  rintro _ middle ⟨canonical', rfl, withins, _⟩
  rw [ends_bind]
  refine (canonical'.lowerType formed decl.ret).mono ?_ fun _ _ => False.elim
  rintro _ after ⟨⟨types, functions, globals, typed, held⟩, rfl, within, knows⟩
  have missing : ∀ function ∈ after.builder.target.signatures,
      function.name ≠ source.names.text decl.link := by
    intro function member
    change function ∈ Module.signatures after.work.builder.target at member
    rw [functions, List.append_nil] at member
    obtain ⟨other, listed, rfl⟩ := List.mem_map.1 member
    exact fresh other listed
  have count : after.builder.target.functions.size = decls.length := by
    rw [← Module.length_signatures]
    change (Module.signatures after.work.builder.target).length = _
    rw [functions, List.append_nil, List.length_map]
  replace missing := Module.functionId?_of_unnamed missing
  unfold Ends
  by_cases room : decls.length < idLimit
  · have declared := @Module.declareFunction_of_missing _ _
      (decl.params.map fun param => ⟨source.names.text param.name, source.translation param.ty⟩)
      (source.translation decl.ret) missing (count ▸ room)
    rw [build_ok (by rw [Build.declare, declared])]
    refine ⟨⟨types.of_types rfl, ?_, globals, fun other listed => ?_, held⟩, congrArg FuncId.mk count,
      room⟩
    · rw [List.append_nil] at functions
      rw [List.append_nil, List.map_append, ← functions]
      exact Module.signatures_addFunction missing
    · rcases List.mem_append.1 listed with earlier | last
      · exact typed other earlier
      · obtain rfl := List.mem_singleton.1 last
        refine .func (fun ty member => ?_) within
        obtain ⟨param, given, rfl⟩ := List.mem_map.1 member
        exact (withins param given).mono knows
  · have declared := @Module.declareFunction_of_full _ _
      (decl.params.map fun param => ⟨source.names.text param.name, source.translation param.ty⟩)
      (source.translation decl.ret) missing (count ▸ room)
    rw [build_error (by rw [Build.declare, declared])]
    exact Nat.le_of_not_lt room

/-- The functions of a program with their positions. -/
def numbered (decls : List FunctionDecl) (start : Nat) : List (FunctionDecl × FuncId) :=
  (decls.zipIdx start).map fun pair => (pair.1, ⟨pair.2⟩)

/-- Signatures are declared one behind the other. -/
theorem Canonical.declareAll (formed : source.WellFormed) {rest : List FunctionDecl}
    (canonical : Canonical source decls consts [] context.work) (room : decls.length ≤ idLimit)
    (apart : ((decls ++ rest).map fun decl => source.names.text decl.link).Nodup) :
    Ends (rest.mapM fun decl => do return (decl, ← Lowering.declareFn source decl)) context
      (fun declared after => Canonical source (decls ++ rest) consts [] after.work ∧
        declared = numbered rest decls.length ∧ decls.length + rest.length ≤ idLimit)
      fun _ _ => idLimit < decls.length + rest.length := by
  induction rest generalizing decls context with
  | nil => exact ⟨(List.append_nil decls).symm ▸ canonical, rfl, room⟩
  | cons decl rest inductionHypothesis =>
    have split : decls ++ decl :: rest = (decls ++ [decl]) ++ rest := by simp
    rw [split] at apart ⊢
    have fresh : ∀ other ∈ decls, source.names.text other.link ≠ source.names.text decl.link := by
      intro other listed same
      rw [List.map_append, List.map_append, List.append_assoc] at apart
      exact (List.nodup_append.1 apart).2.2 _ (List.mem_map_of_mem listed) _
        (List.mem_append_left _ List.mem_cons_self) same
    rw [List.mapM_cons, ends_bind, ends_bind]
    refine (canonical.declareFn formed fresh).mono ?_ fun _ _ full => by
      rw [List.length_cons]
      omega
    rintro _ middle ⟨canonical', rfl, room'⟩
    change Ends (List.mapM _ rest >>= _) middle _ _
    have more : (decls ++ [decl]).length = decls.length + 1 := by simp
    rw [ends_bind]
    refine (inductionHypothesis canonical' (more.trans_le room') apart).mono ?_ fun _ _ full => ?_
    · rintro _ after ⟨canonical'', rfl, room''⟩
      rw [more] at room'' ⊢
      refine ⟨canonical'', rfl, ?_⟩
      rw [List.length_cons]
      omega
    · rw [more] at full
      rw [List.length_cons]
      omega

/-- All structs, constants and signatures are declared when there is room. -/
theorem declares_canonical (formed : source.WellFormed)
    (links : (source.program.functions.map fun decl => source.names.text decl.link).Nodup)
    (consts : (source.program.consts.map fun decl => source.names.text decl.name).Nodup)
    (options : Options) :
    Ends (declareProgram source) (Context.start options)
      (fun declared after =>
        Canonical source source.program.functions source.program.consts [] after.work ∧
          declared = numbered source.program.functions 0 ∧
          source.program.functions.length ≤ idLimit)
      fun _ _ => idLimit < source.program.functions.length := by
  have start : Canonical source [] [] [] (Context.start options).work :=
    ⟨.start source _, rfl, rfl, nofun, nofun⟩
  unfold declareProgram
  rw [ends_bind]
  refine (start.declareItems formed consts).mono (fun _ after canonical => ?_) fun _ _ => False.elim
  refine (Canonical.declareAll formed canonical (Nat.zero_le _) links).mono ?_ fun _ _ full => ?_
  · rintro _ after ⟨canonical', rfl, room⟩
    exact ⟨canonical', rfl, (Nat.zero_add _).symm.trans_le room⟩
  · exact full.trans_eq (Nat.zero_add _)

end Declaring

end TreeLowering.Lowering
