/-
This file lowers two programs beside each other that have the same items, except that functions may
have other bodies. When each function is lowered as its counterpart is, so are the programs.
-/

import TreeLowering.Proofs.Calls.Watch
import TreeLowering.Proofs.Rewrite.Expr

namespace TreeLowering.Tree

/-- Both items are the same, except that related functions stand in them. -/
inductive Item.Counterpart (related : FunctionDecl → FunctionDecl → Prop) : Item → Item → Prop
  | function {decl decl' : FunctionDecl} (pair : related decl decl') :
      Counterpart related (.function decl) (.function decl')
  | methods {group : MethodGroup} {functions' : List FunctionDecl}
      (pairs : List.Forall₂ related group.functions functions') :
      Counterpart related (.methods group) (.methods { group with functions := functions' })
  | const (decl : ConstDecl) : Counterpart related (.const decl) (.const decl)
  | struct (decl : StructDecl) : Counterpart related (.struct decl) (.struct decl)

variable {related : FunctionDecl → FunctionDecl → Prop} {items items' : List Item}

theorem Item.Counterpart.functions {item item' : Item} (pair : item.Counterpart related item') :
    List.Forall₂ related item.functions item'.functions := by
  cases pair with
  | function pair => exact .cons pair .nil
  | methods pairs => exact pairs
  | const decl => exact .nil
  | struct decl => exact .nil

theorem forall₂_functions (pairs : List.Forall₂ (Item.Counterpart related) items items') :
    List.Forall₂ related (items.flatMap Item.functions) (items'.flatMap Item.functions) := by
  induction pairs with
  | nil => exact .nil
  | cons pair _ inductionHypothesis => exact List.rel_append pair.functions inductionHypothesis

/-- Only functions of the program are related. -/
theorem forall₂_listed (pairs : List.Forall₂ (Item.Counterpart related) items items')
    {listed : FunctionDecl → Prop} (known : ∀ decl ∈ items.flatMap Item.functions, listed decl) :
    List.Forall₂ (Item.Counterpart fun decl decl' => listed decl ∧ related decl decl') items
      items' := by
  induction pairs with
  | nil => exact .nil
  | @cons item item' rest rest' pair _ inductionHypothesis =>
    rw [List.flatMap_cons] at known
    have own : ∀ decl ∈ item.functions, listed decl := fun decl member =>
      known decl (List.mem_append_left _ member)
    refine .cons ?_ (inductionHypothesis fun decl member =>
      known decl (List.mem_append_right _ member))
    cases pair with
    | function pair => exact .function ⟨own _ List.mem_cons_self, pair⟩
    | methods pairs => exact .methods ((List.forall₂_and_left _ _).2 ⟨own, pairs⟩)
    | const decl => exact .const decl
    | struct decl => exact .struct decl

/-- Every item is its own counterpart when its functions are. -/
theorem forall₂_counterpart (own : ∀ decl ∈ items.flatMap Item.functions, related decl decl) :
    List.Forall₂ (Item.Counterpart related) items items := by
  refine List.forall₂_same.2 fun item listed => ?_
  have own' : ∀ decl ∈ item.functions, related decl decl := fun decl member =>
    own decl (List.mem_flatMap_of_mem listed member)
  cases item with
  | function decl => exact .function (own' decl List.mem_cons_self)
  | methods group => exact .methods (List.forall₂_same.2 own')
  | const decl => exact .const decl
  | struct decl => exact .struct decl

end TreeLowering.Tree

namespace TreeLowering.Lowering

open TreeLowering.Ir TreeLowering.Tree

/-- What two lists of related functions are declared as. -/
abbrev DeclaredAlike (related : FunctionDecl → FunctionDecl → Prop) :
    List (FunctionDecl × FuncId) → List (FunctionDecl × FuncId) → Prop :=
  List.Forall₂ fun pair pair' => related pair.1 pair'.1 ∧ pair'.2 = pair.2

/-- One list of steps after the other, each mirrored by its counterpart. -/
theorem Mirrors.forall₂ {β γ : Type} {alarm : Error} {items : List β} {items' : List γ}
    {action : γ → LowerM PUnit} {mirror : β → LowerM PUnit}
    (each : List.Forall₂ (fun item item' => Mirrors alarm (action item') (mirror item)) items items') :
    Mirrors alarm (items'.forM action) (items.forM mirror) := by
  induction each with
  | nil => exact .refl _
  | cons own _ inductionHypothesis => exact own.bind fun _ => inductionHypothesis

section Programs

variable {source source' : Source} {related : FunctionDecl → FunctionDecl → Prop}
  {lower : List Name → ExprId → LowerM Value} {alarm : Error}

section Declare

variable (tables : source.SameTables source')
  (header : ∀ {decl decl'}, related decl decl' → decl' = { decl with body := decl'.body })

include tables

theorem declareItem_counterpart {item item' : Item} (pair : item.Counterpart related item') :
    declareItem source' item' = declareItem source item := by
  rw [tables.declareItem]
  cases pair <;> rfl

theorem forM_declareItem {items items' : List Item}
    (pairs : List.Forall₂ (Item.Counterpart related) items items') :
    items'.forM (declareItem source') = items.forM (declareItem source) := by
  induction pairs with
  | nil => rfl
  | @cons item item' rest rest' pair _ inductionHypothesis =>
    have step : ∀ (source : Source) (item : Item) (rest : List Item),
        (item :: rest).forM (declareItem source) =
          declareItem source item >>= fun _ => rest.forM (declareItem source) :=
      fun _ _ _ => rfl
    rw [step, step, declareItem_counterpart tables pair, inductionHypothesis]

include header

/-- Related functions are declared alike. -/
theorem declares_related {decls decls' : List FunctionDecl}
    (pairs : List.Forall₂ related decls decls') (context : Context) :
    match (decls.mapM fun decl => do return (decl, ← declareFn source decl) :
      LowerM (List (FunctionDecl × FuncId))) context with
    | .ok declared after => ∃ declared', (decls'.mapM fun decl => do
        return (decl, ← declareFn source' decl) : LowerM _) context = .ok declared' after ∧
          DeclaredAlike related declared declared'
    | .error cause after => (decls'.mapM fun decl => do
        return (decl, ← declareFn source' decl) : LowerM (List (FunctionDecl × FuncId))) context =
          .error cause after := by
  induction pairs generalizing context with
  | nil => exact ⟨[], rfl, .nil⟩
  | @cons decl decl' rest rest' pair _ inductionHypothesis =>
    have same : declareFn source' decl' = declareFn source decl := by
      rw [tables.declareFn, header pair]
      rfl
    simp only [List.mapM_cons, bind_assoc, pure_bind]
    rw [same]
    cases first : declareFn source decl context with
    | error cause after =>
      rw [run_bind_error first]
      exact run_bind_error first
    | ok func middle =>
      rw [run_bind first, run_bind first]
      have later := inductionHypothesis middle
      cases others : (rest.mapM fun decl => do return (decl, ← declareFn source decl) :
          LowerM (List (FunctionDecl × FuncId))) middle with
      | error cause after =>
        rw [others] at later
        rw [run_bind_error others]
        exact run_bind_error later
      | ok declared after =>
        rw [others] at later
        obtain ⟨declared', others', alike⟩ := later
        rw [run_bind others, run_bind others']
        exact ⟨(decl', func) :: declared', rfl, .cons ⟨pair, rfl⟩ alike⟩

end Declare

variable (each : ∀ {decl decl'}, related decl decl' → ∀ func,
  Mirrors alarm (lowerFunction source' decl' func) (lowerFunctionBy lower source decl func))

include each

theorem mirrors_declared {declared declared' : List (FunctionDecl × FuncId)}
    (alike : DeclaredAlike related declared declared') :
    Mirrors alarm (declared'.forM fun (decl, func) => lowerFunction source' decl func)
      (declared.forM fun (decl, func) => lowerFunctionBy lower source decl func) := by
  refine Mirrors.forall₂ (alike.imp ?_)
  rintro ⟨decl, func⟩ ⟨decl', func'⟩ ⟨own, rfl⟩
  exact each own func'

/-- When related functions are mirrored, so are the programs. -/
theorem mirrors_counterparts (tables : source.SameTables source')
    (header : ∀ {decl decl'}, related decl decl' → decl' = { decl with body := decl'.body })
    (pairs : List.Forall₂ (Item.Counterpart related) source.program.items source'.program.items) :
    Mirrors alarm (lowerItems source') (lowerItemsBy lower source) := by
  unfold lowerItems lowerItemsBy
  rw [forM_declareItem tables pairs]
  refine (Mirrors.refl _).bind fun _ context => ?_
  have declares := declares_related tables header (forall₂_functions pairs) context
  unfold Program.functions
  cases ended : (source.program.items.flatMap Item.functions).mapM (fun decl => do
      return (decl, ← declareFn source decl) : FunctionDecl → LowerM (FunctionDecl × FuncId))
      context with
  | error cause after =>
    rw [ended] at declares
    rw [run_bind_error ended, run_bind_error declares]
    exact .inl rfl
  | ok declared after =>
    rw [ended] at declares
    obtain ⟨declared', ended', alike⟩ := declares
    rw [run_bind ended, run_bind ended']
    exact mirrors_declared each alike after

end Programs

/-- A program is lowered as another one is when it is mirrored by a run that makes no difference to the
other one, whatever the alarm is. -/
theorem lowerProgram_eq_of_mirrors {source source' : Source} {options : Options}
    {lower : Error → List Name → ExprId → LowerM Value}
    (mirrors : ∀ alarm, Mirrors alarm (lowerItems source') (lowerItemsBy (lower alarm) source))
    (quiet : ∀ alarm, lowerProgramBy (lower alarm) source options = lowerProgram source options) :
    lowerProgram source' options = lowerProgram source options := by
  have either : ∀ alarm, lowerProgram source' options = lowerProgram source options ∨
      lowerProgram source options = .error alarm := by
    intro alarm
    rw [← quiet alarm]
    unfold lowerProgram lowerProgramBy
    rcases mirrors alarm (Context.start options) with same | ⟨after, raised⟩
    · rw [same]
      exact .inl rfl
    · rw [raised]
      exact .inr rfl
  rcases either .malformedTree with same | raised
  · exact same
  · refine (either .noInsertionPoint).resolve_right fun raised' => ?_
    cases raised.symm.trans raised'

end TreeLowering.Lowering
