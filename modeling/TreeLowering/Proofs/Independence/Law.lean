/-
This file proves that functions are lowered independently. A run is done when each of its bodies is,
and what a body is lowered to does not depend on the run. So the order of the items decides neither
whether a program is accepted nor what its functions look like, and another body of one function
changes no other function.
-/

import TreeLowering.Ir.Listing
import TreeLowering.Proofs.Independence.Function
import TreeLowering.Proofs.Types.Address

namespace TreeLowering.Tree

/-! ### Other programs over the same types and scopes -/

/-- Expressions are met by going down the arena only. -/
theorem Program.Meets.of_arena {program program' : Program} (same : program'.arena = program.arena)
    {scope inner : ScopeId} {body expr : ExprId} (met : program.Meets scope body inner expr) :
    program'.Meets scope body inner expr := by
  induction met with
  | body => exact .body
  | part _ found member inductionHypothesis =>
    exact .part inductionHypothesis (same.symm ▸ found) member

/-- The declaration with another body, if it is the one with this link name. -/
def FunctionDecl.withBody (link : Name) (body : ExprId) (decl : FunctionDecl) : FunctionDecl :=
  if decl.link = link then { decl with body := some body } else decl

/-- The item with another body for the function with this link name. -/
def Item.withBody (link : Name) (body : ExprId) : Item → Item
  | function decl => .function (decl.withBody link body)
  | methods group => .methods { group with functions := group.functions.map (·.withBody link body) }
  | const decl => .const decl
  | struct decl => .struct decl

theorem Item.functions_withBody (link : Name) (body : ExprId) (item : Item) :
    (item.withBody link body).functions = item.functions.map (·.withBody link body) := by
  cases item <;> rfl

theorem Item.const?_withBody (link : Name) (body : ExprId) (item : Item) :
    (item.withBody link body).const? = item.const? := by
  cases item <;> rfl

end TreeLowering.Tree

namespace TreeLowering.Ir

/-- The `define` text of the function with this name. -/
def Module.definition? (target : Module) (name : String) : Option String :=
  (target.functionByName? name).map Function.listing

end TreeLowering.Ir

namespace TreeLowering.Lowering

open TreeLowering.Ir TreeLowering.Tree Relation

/-! ### Runs -/

/-- The bodies that are still to come, each with the position of its function. -/
structure Pending (source : Source) (options : Options) (rest : List (FunctionDecl × FuncId))
    (context : Context) : Prop where
  between : Between source options context
  apart : (rest.map Prod.snd).Nodup
  listed : ∀ pair ∈ rest, source.program.functions[pair.2.index]? = some pair.1
  bare : ∀ pair ∈ rest, context.builder.target.function? pair.2 = some (source.signature pair.1)

section Runs

variable {source : Source} {arena : Arena} {items : List Item} {options : Options}
  {rest : List (FunctionDecl × FuncId)} {pair : FunctionDecl × FuncId} {context after : Context}

theorem Pending.awaits (pending : Pending source options (pair :: rest) context) :
    Awaits source options pair.1 pair.2 context :=
  ⟨pending.between, pending.listed pair List.mem_cons_self, pending.bare pair List.mem_cons_self⟩

/-- After one body, the others are still to come. -/
theorem Pending.tail (self : source.SelfContained)
    (pending : Pending source options (pair :: rest) context)
    (returned : lowerFunction source pair.1 pair.2 context = .ok () after) :
    Pending source options rest after := by
  obtain ⟨between, _, beside⟩ := pending.awaits.gives self returned
  obtain ⟨outside, apart⟩ := List.nodup_cons.1 pending.apart
  refine ⟨between, apart, fun other member => pending.listed other (List.mem_cons_of_mem _ member),
    fun other member => beside other.2 (fun same => outside ?_) _
      (pending.bare other (List.mem_cons_of_mem _ member))⟩
  exact same ▸ List.mem_map_of_mem member

/-- What a run that returned has made of its bodies. -/
theorem Pending.made (self : source.SelfContained) (pending : Pending source options rest context)
    (returned : (rest.forM fun (decl, func) => lowerFunction source decl func : LowerM _) context =
      .ok () after) :
    Between source options after ∧
      (∀ pair ∈ rest, ∃ function, source.Makes options pair.1 function ∧
        after.builder.target.function? pair.2 = some function) ∧
      ∀ other ∉ rest.map Prod.snd, ∀ function,
        context.builder.target.function? other = some function →
          after.builder.target.function? other = some function := by
  induction rest generalizing context with
  | nil =>
    cases returned
    exact ⟨pending.between, nofun, fun _ _ _ => id⟩
  | cons pair rest inductionHypothesis =>
    obtain ⟨_, middle, first, others⟩ := run_bind_ok returned
    obtain ⟨between, made, kept⟩ := inductionHypothesis (pending.tail self first) others
    obtain ⟨_, ⟨function, here⟩, beside⟩ := pending.awaits.gives self first
    have outside := (List.nodup_cons.1 pending.apart).1
    refine ⟨between, fun other member => ?_, fun other away function found => ?_⟩
    · rcases List.mem_cons.1 member with rfl | member
      · exact ⟨function, ⟨_, context, middle, pending.awaits, first, here⟩,
          kept _ outside function here⟩
      · exact made other member
    · rw [List.map_cons, List.mem_cons, not_or] at away
      exact kept other away.2 function (beside other away.1 function found)

/-- A run returns when each of its bodies would elsewhere. -/
theorem Pending.returns (self : source.SelfContained)
    (self' : (source.swap arena items).SelfContained) (same : source.DeclaresSame arena items)
    (pending : Pending (source.swap arena items) options rest context)
    (made : ∀ pair ∈ rest, source.Shares arena pair.1 ∧
      ∃ function, source.Makes options pair.1 function) :
    ∃ after, (rest.forM fun (decl, func) => lowerFunction (source.swap arena items) decl func :
      LowerM _) context = .ok () after := by
  induction rest generalizing context with
  | nil => exact ⟨context, rfl⟩
  | cons pair rest inductionHypothesis =>
    obtain ⟨shares, function, makes⟩ := made pair List.mem_cons_self
    obtain ⟨middle, first, _⟩ := makes.elsewhere same self shares pending.awaits
    obtain ⟨after, others⟩ := inductionHypothesis (pending.tail self' first)
      fun pair member => made pair (List.mem_cons_of_mem _ member)
    refine ⟨after, ?_⟩
    show (lowerFunction (source.swap arena items) pair.1 pair.2 >>= fun _ =>
      rest.forM fun (decl, func) =>
        lowerFunction (source.swap arena items) decl func : LowerM _) context = _
    rw [run_bind first]
    exact others

end Runs

/-! ### Programs -/

section Programs

variable {source : Source} {arena : Arena} {items : List Item} {options : Options} {target : Module}

/-- The functions of a program stand at their positions, each at its own. -/
theorem mem_numbered {decls : List FunctionDecl} {pair : FunctionDecl × FuncId}
    (member : pair ∈ numbered decls 0) : decls[pair.2.index]? = some pair.1 := by
  obtain ⟨⟨decl, index⟩, listed, rfl⟩ := List.mem_map.1 member
  exact List.mem_zipIdx_iff_getElem?.1 listed

theorem nodup_numbered (decls : List FunctionDecl) : ((numbered decls 0).map Prod.snd).Nodup := by
  have positions : (numbered decls 0).map Prod.snd = (List.range' 0 decls.length).map FuncId.mk := by
    rw [numbered, List.map_map, ← List.zipIdx_map_snd, List.map_map]
    rfl
  rw [positions]
  exact List.Nodup.map (fun _ _ same => congrArg FuncId.index same) List.nodup_range'

theorem exists_numbered {decls : List FunctionDecl} {decl : FunctionDecl} (listed : decl ∈ decls) :
    ∃ func, (decl, func) ∈ numbered decls 0 := by
  obtain ⟨index, found⟩ := List.mem_iff_getElem?.1 listed
  exact ⟨⟨index⟩, List.mem_map.2 ⟨(decl, index), List.mem_zipIdx_iff_getElem?.2 found, rfl⟩⟩

/-- Once everything is declared, all bodies are still to come. -/
theorem Source.SelfContained.pending (self : source.SelfContained) (options : Options) :
    Ends (declareProgram source) (Context.start options)
      (fun declared after => declared = numbered source.program.functions 0 ∧
        Pending source options declared after ∧ source.program.functions.length ≤ idLimit)
      fun _ _ => idLimit < source.program.functions.length := by
  refine ((declares_canonical self.formed self.links self.names options).and
    (ensures_declareProgram source _).ends).mono ?_ fun _ _ ended => ended.1
  rintro _ after ⟨⟨canonical, rfl, room⟩, quietly, _⟩
  have furnished : Furnished source options after.work :=
    ⟨by rw [Context.work, quietly.builder]; rfl, [], .inl rfl, canonical⟩
  refine ⟨rfl, ⟨⟨furnished, .start quietly, quietly.scope⟩, nodup_numbered _,
    fun pair member => mem_numbered member, fun pair member => ?_⟩, room⟩
  obtain ⟨function, found, bare, _⟩ := furnished.function? (mem_numbered member)
  have empty : function.blocks = #[] := by
    simpa [Function.isDeclaration] using quietly.declares.added pair.2 function rfl found
  rw [← bare, Function.bare, ← empty]
  exact found

theorem lowerItems_eq (source : Source) : lowerItems source = declareProgram source >>=
    fun declared => declared.forM fun (decl, func) => lowerFunction source decl func := by
  unfold lowerItems declareProgram
  rw [bind_assoc]

/-- A run returned when each of its parts did. -/
theorem lowerProgram_ok_iff : lowerProgram source options = .ok target ↔
    ∃ declared middle after, declareProgram source (Context.start options) = .ok declared middle ∧
      (declared.forM fun (decl, func) => lowerFunction source decl func : LowerM _) middle =
        .ok () after ∧ after.builder.target = target := by
  unfold lowerProgram
  rw [lowerItems_eq]
  constructor
  · intro returned
    cases ended : (declareProgram source >>= fun declared => declared.forM fun (decl, func) =>
      lowerFunction source decl func) (Context.start options) with
    | ok _ after =>
      rw [ended] at returned
      cases returned
      obtain ⟨declared, middle, first, others⟩ := run_bind_ok ended
      exact ⟨declared, middle, after, first, others, rfl⟩
    | error cause after =>
      rw [ended] at returned
      cases returned
  · rintro ⟨declared, middle, after, first, others, rfl⟩
    rw [run_bind first, others]

/-- In an accepted program, each function is what its body makes of it. -/
theorem Source.SelfContained.made (self : source.SelfContained)
    (returned : lowerProgram source options = .ok target) :
    source.program.functions.length ≤ idLimit ∧ ∀ decl ∈ source.program.functions,
      ∃ function, source.Makes options decl function ∧
        target.functionByName? (source.names.text decl.link) = some function := by
  obtain ⟨declared, middle, after, first, others, rfl⟩ := lowerProgram_ok_iff.1 returned
  obtain ⟨rfl, pending, room⟩ := (self.pending options).of_ok first
  obtain ⟨between, made, _⟩ := pending.made self others
  refine ⟨room, fun decl listed => ?_⟩
  obtain ⟨func, member⟩ := exists_numbered listed
  obtain ⟨function, makes, here⟩ := made _ member
  obtain ⟨func', known, here'⟩ := between.furnished.functionId? self.links listed
  have same : func.index = func'.index := by
    have found := mem_numbered member
    exact (List.getElem?_inj (List.getElem?_eq_some_iff.1 found).1 (.of_map _ self.links)).1
      (found.trans here'.symm)
  refine ⟨function, makes, ?_⟩
  rw [Module.functionByName?, show after.builder.target.functionId? _ = some func' from known,
    ← show func = func' from congrArg FuncId.mk same]
  exact here

/-- A program is accepted when there is room for its functions and each body is lowered elsewhere. -/
theorem Source.SelfContained.returns (self : source.SelfContained)
    (self' : (source.swap arena items).SelfContained) (same : source.DeclaresSame arena items)
    (room : (source.swap arena items).program.functions.length ≤ idLimit)
    (made : ∀ decl ∈ (source.swap arena items).program.functions, source.Shares arena decl ∧
      ∃ function, source.Makes options decl function) :
    ∃ target, lowerProgram (source.swap arena items) options = .ok target := by
  have ended := self'.pending options
  unfold Ends at ended
  cases first : declareProgram (source.swap arena items) (Context.start options) with
  | error cause after =>
    rw [first] at ended
    exact absurd ended (Nat.not_lt.2 room)
  | ok declared middle =>
    rw [first] at ended
    obtain ⟨rfl, pending, _⟩ := ended
    obtain ⟨after, others⟩ := pending.returns self self' same fun pair member =>
      made pair.1 (List.mem_of_getElem? (mem_numbered member))
    exact ⟨_, lowerProgram_ok_iff.2 ⟨_, middle, after, first, others, rfl⟩⟩

/-! ### Items in another order -/

section Order

variable (permuted : items.Perm source.program.items)

include permuted

theorem functions_of_perm : (source.swap source.program.arena items).program.functions.Perm
    source.program.functions :=
  permuted.flatMap_right _

theorem mem_functions_of_perm {decl : FunctionDecl} :
    decl ∈ (source.swap source.program.arena items).program.functions ↔
      decl ∈ source.program.functions :=
  (functions_of_perm permuted).mem_iff

/-- The order of the items does not matter to what a program declares. -/
theorem Source.SelfContained.reorder (self : source.SelfContained) :
    (source.swap source.program.arena items).SelfContained := by
  obtain ⟨⟨found, acyclic, layered, pool, table, structs, links⟩, apart, names, texts, symbols⟩ := self
  have functions := functions_of_perm permuted
  refine ⟨⟨fun decl listed => found decl (functions.mem_iff.1 listed), acyclic, layered, pool, table,
    structs, fun decl listed => links decl (functions.mem_iff.1 listed)⟩,
    (functions.map _).nodup_iff.2 apart, ((permuted.filterMap _).map _).nodup_iff.2 names,
    fun decl listed => texts decl (functions.mem_iff.1 listed), ?_⟩
  rintro scope name ⟨decl, listed, body, given, expr, span, ty, met, stored⟩ link ty' resolved
  have met' : source.program.Meets decl.scope body scope expr :=
    @Program.Meets.of_arena (source.swap source.program.arena items).program source.program rfl
      _ _ _ _ met
  obtain ⟨used, listed', same⟩ := symbols scope name
    ⟨decl, functions.mem_iff.1 listed, body, given, expr, span, ty, met', stored⟩ link ty' resolved
  exact ⟨used, functions.mem_iff.2 listed', same⟩

theorem Source.SelfContained.declaresSame (self : source.SelfContained) :
    source.DeclaresSame source.program.arena items :=
  ⟨self.formed, (self.reorder permuted).formed, (functions_of_perm permuted).map _,
    permuted.filterMap _, self.links, self.names⟩

end Order

/-! ### Another body for one function -/

/-- The program with another body for the function with this link name, in an arena that may have
grown for it. -/
def Source.withBody (source : Source) (arena : Arena) (link : Name) (body : ExprId) : Source :=
  source.swap arena (source.program.items.map (Item.withBody link body))

theorem Source.functions_withBody (source : Source) (arena : Arena) (link : Name) (body : ExprId) :
    (source.withBody arena link body).program.functions =
      source.program.functions.map (FunctionDecl.withBody link body) := by
  show (source.program.items.map _).flatMap Item.functions = _
  rw [List.flatMap_map, Program.functions, List.map_flatMap]
  exact List.flatMap_congr fun item _ => item.functions_withBody link body

/-- The bodies of functions do not matter to what a program declares. -/
theorem Source.SelfContained.declaresSame_withBody (self : source.SelfContained) {link : Name}
    {body : ExprId} (self' : (source.withBody arena link body).SelfContained) :
    source.DeclaresSame arena (source.program.items.map (Item.withBody link body)) := by
  refine ⟨self.formed, self'.formed, .of_eq ?_, .of_eq ?_, self.links, self.names⟩
  · refine (congrArg _ (source.functions_withBody arena link body)).trans ?_
    rw [List.map_map]
    refine List.map_congr_left fun decl _ => ?_
    rw [Function.comp_apply, FunctionDecl.withBody]
    split <;> rfl
  · show (source.program.items.map _).filterMap Item.const? = _
    rw [List.filterMap_map, Program.consts]
    exact congrArg (List.filterMap · _) (funext fun item => item.const?_withBody link body)

theorem Source.mem_functions_withBody {link : Name} {body : ExprId} {decl : FunctionDecl}
    (listed : decl ∈ source.program.functions) (other : decl.link ≠ link) :
    decl ∈ (source.withBody arena link body).program.functions := by
  rw [source.functions_withBody]
  refine List.mem_map.2 ⟨decl, listed, ?_⟩
  rw [FunctionDecl.withBody, if_neg other]

/-! ### Independence -/

/-- What accepted programs make of a body that they share has one text. -/
theorem Source.DeclaresSame.definition? {target' : Module} (same : source.DeclaresSame arena items)
    (self : source.SelfContained) (self' : (source.swap arena items).SelfContained)
    (returned : lowerProgram source options = .ok target)
    (returned' : lowerProgram (source.swap arena items) options = .ok target')
    {decl : FunctionDecl} (listed : decl ∈ source.program.functions)
    (listed' : decl ∈ (source.swap arena items).program.functions)
    (shares : source.Shares arena decl) :
    ∃ text, target.definition? (source.names.text decl.link) = some text ∧
      target'.definition? (source.names.text decl.link) = some text := by
  obtain ⟨function, makes, here⟩ := (self.made returned).2 decl listed
  obtain ⟨function', makes', here'⟩ := (self'.made returned').2 decl listed'
  obtain rfl := makes.unique makes' same self shares
  exact ⟨_, congrArg (Option.map _) here, congrArg (Option.map _) here'⟩

/-- The order of the items decides neither whether a self-contained program is accepted nor the text
of any function, and another body of one function leaves the texts of all others as they are. -/
theorem lowerProgram_independent (self : source.SelfContained) (options : Options) :
    (∀ items, items.Perm source.program.items →
      ((∃ target, lowerProgram source options = .ok target) ↔
        ∃ target, lowerProgram (source.swap source.program.arena items) options = .ok target) ∧
      ∀ target target', lowerProgram source options = .ok target →
        lowerProgram (source.swap source.program.arena items) options = .ok target' →
        ∀ decl ∈ source.program.functions, ∃ text,
          target.definition? (source.names.text decl.link) = some text ∧
            target'.definition? (source.names.text decl.link) = some text) ∧
    ∀ arena link body, (source.withBody arena link body).SelfContained →
      (∀ decl ∈ source.program.functions, decl.link ≠ link → source.Shares arena decl) →
      ∀ target target', lowerProgram source options = .ok target →
        lowerProgram (source.withBody arena link body) options = .ok target' →
        ∀ decl ∈ source.program.functions, decl.link ≠ link → ∃ text,
          target.definition? (source.names.text decl.link) = some text ∧
            target'.definition? (source.names.text decl.link) = some text := by
  constructor
  · intro items permuted
    have self' := self.reorder permuted
    have same := self.declaresSame permuted
    have shares : ∀ decl, source.Shares source.program.arena decl := fun _ _ _ _ _ => rfl
    refine ⟨⟨fun ⟨target, returned⟩ => ?_, fun ⟨target, returned⟩ => ?_⟩,
      fun target target' returned returned' decl listed => same.definition? self self' returned
        returned' listed ((mem_functions_of_perm permuted).2 listed) (shares decl)⟩
    · obtain ⟨room, made⟩ := self.made returned
      refine self.returns self' same ((functions_of_perm permuted).length_eq.trans_le room)
        fun decl listed => ⟨shares decl, ?_⟩
      obtain ⟨function, makes, _⟩ := made decl ((mem_functions_of_perm permuted).1 listed)
      exact ⟨function, makes⟩
    · -- the first program is the second one with its items put back
      obtain ⟨room, made⟩ := self'.made returned
      refine self'.returns self (self'.declaresSame permuted.symm)
        ((functions_of_perm permuted).length_eq.symm.trans_le room)
        fun decl listed => ⟨fun _ _ _ _ => rfl, ?_⟩
      obtain ⟨function, makes, _⟩ := made decl ((mem_functions_of_perm permuted).2 listed)
      exact ⟨function, makes⟩
  · intro arena link body self' shares target target' returned returned' decl listed other
    exact (self.declaresSame_withBody self').definition? self self' returned returned' listed
      (Source.mem_functions_withBody listed other) (shares decl listed other)

/-- A program is self-contained when its arena has no string literals and the tables of its scopes
have no functions but its own. -/
theorem Source.SelfContained.of_tables (formed : source.WellFormed)
    (links : (source.program.functions.map fun decl => source.names.text decl.link).Nodup)
    (names : (source.program.consts.map fun decl => source.names.text decl.name).Nodup)
    (texts : ∀ node ∈ source.program.arena.nodes, ∀ text, node.kind ≠ .str text)
    (symbols : ∀ scope ∈ source.program.scopes.scopes, ∀ entry ∈ scope.values, ∀ link ty,
      entry.2 = .function link ty → ∃ decl ∈ source.program.functions, decl.link = link) :
    source.SelfContained := by
  refine ⟨formed, links, names, fun _ _ _ _ _ node _ stored => texts node
    (Array.mem_of_getElem? stored), fun scope name _ link ty resolved => ?_⟩
  obtain ⟨found, member, listed⟩ := ScopeTree.mem_of_resolve? resolved
  exact symbols found member _ listed link ty rfl

/-- `fn first() -> i32 { second() }`
`fn second() -> i32 { 1 }`, where the arena has `2` as another body. -/
def relay : Source where
  names := ((NameTable.initial.intern "first").2.intern "second").2
  program :=
    { types := (TypePool.initial.intern (.function [] .i32)).2
      scopes := ScopeTree.initial.define .root .value ⟨2⟩ (.function ⟨2⟩ ⟨11⟩)
      arena := ⟨#[⟨.path [⟨2⟩], .nowhere, ⟨11⟩⟩, ⟨.call ⟨0⟩ [], .nowhere, .i32⟩,
        ⟨.int 1, .nowhere, .i32⟩, ⟨.int 2, .nowhere, .i32⟩]⟩
      items := [.function ⟨⟨1⟩, ⟨1⟩, [], .i32, some ⟨1⟩, .root, .nowhere⟩,
        .function ⟨⟨2⟩, ⟨2⟩, [], .i32, some ⟨2⟩, .root, .nowhere⟩] }

/-- The program is self-contained, with either body of its second function. -/
theorem relay_selfContained {items : List Item}
    (bodies : ∀ decl ∈ (relay.swap relay.program.arena items).program.functions,
      ∀ body ∈ decl.body, body.index < 4)
    (links : (relay.swap relay.program.arena items).program.functions.map FunctionDecl.link =
      [⟨1⟩, ⟨2⟩])
    (consts : (relay.swap relay.program.arena items).program.consts = []) :
    (relay.swap relay.program.arena items).SelfContained := by
  have named : ∀ decl ∈ (relay.swap relay.program.arena items).program.functions,
      decl.link ∈ [(⟨1⟩ : Name), ⟨2⟩] := fun decl listed => links ▸ List.mem_map_of_mem listed
  refine .of_tables ?_ ?_ ?_ (fun node member text => ?_)
    fun scope member entry listed link ty same => ?_
  · have types : relay.program.types.Ordered := by decide +kernel
    have ordered : relay.program.arena.Ordered := by decide
    have structs : ∀ kind ∈ relay.program.types.kinds, ∀ name ∈ kind.structName?,
        name.index < relay.names.size := by decide +kernel
    refine .of_ordered (.intern .initial (by simp)) types ordered
      ((NameTable.Made.initial.intern _).intern _) structs bodies fun decl listed => ?_
    have bound : ∀ name ∈ [(⟨1⟩ : Name), ⟨2⟩], name.index < relay.names.size := by decide +kernel
    exact bound _ (named decl listed)
  · have texts : (relay.swap relay.program.arena items).program.functions.map
        (fun decl => relay.names.text decl.link) = [(⟨1⟩ : Name), ⟨2⟩].map relay.names.text := by
      rw [← links, List.map_map]
      rfl
    show ((relay.swap relay.program.arena items).program.functions.map
      fun decl => relay.names.text decl.link).Nodup
    rw [texts]
    decide +kernel
  · rw [consts]
    exact List.nodup_nil
  · have kinds : ∀ node ∈ relay.program.arena.nodes, node.kind ∈
        [ExprKind.path [⟨2⟩], .call ⟨0⟩ [], .int 1, .int 2] := by decide
    have listed := kinds node member
    rintro same
    rw [same] at listed
    simp at listed
  · have tables : relay.program.scopes.scopes =
        #[⟨none, [(⟨2⟩, .function ⟨2⟩ ⟨11⟩)], []⟩] := rfl
    rw [tables] at member
    obtain rfl := Array.mem_singleton.1 member
    obtain rfl := List.mem_singleton.1 listed
    cases same
    have second : (⟨2⟩ : Name) ∈
        (relay.swap relay.program.arena items).program.functions.map FunctionDecl.link :=
      links ▸ List.mem_cons_of_mem _ List.mem_cons_self
    obtain ⟨decl, listed, named⟩ := List.mem_map.1 second
    exact ⟨decl, listed, named⟩

/-- Neither the other order of the items nor the other body of `second` changes the text of
`first`. -/
theorem relay_independent : ∃ target reordered changed,
    lowerProgram relay .standard = .ok target ∧
    lowerProgram (relay.swap relay.program.arena relay.program.items.reverse) .standard =
      .ok reordered ∧
    lowerProgram (relay.withBody relay.program.arena ⟨2⟩ ⟨3⟩) .standard = .ok changed ∧
    ∃ text, target.definition? "first" = some text ∧ reordered.definition? "first" = some text ∧
      changed.definition? "first" = some text := by
  have self : relay.SelfContained :=
    @relay_selfContained relay.program.items (by decide +kernel) rfl rfl
  have self' : (relay.withBody relay.program.arena ⟨2⟩ ⟨3⟩).SelfContained :=
    relay_selfContained (by decide +kernel) rfl rfl
  obtain ⟨orders, bodies⟩ := lowerProgram_independent self .standard
  have returned : ∃ target, lowerProgram relay .standard = .ok target := ⟨_, by cbv⟩
  have changes : ∃ changed,
      lowerProgram (relay.withBody relay.program.arena ⟨2⟩ ⟨3⟩) .standard = .ok changed :=
    ⟨_, by cbv⟩
  obtain ⟨accepted, texts⟩ := orders _ (List.reverse_perm relay.program.items)
  obtain ⟨reordered, reorders⟩ := accepted.1 returned
  obtain ⟨target, returned⟩ := returned
  obtain ⟨changed, changes⟩ := changes
  have listed : ⟨⟨1⟩, ⟨1⟩, [], .i32, some ⟨1⟩, .root, .nowhere⟩ ∈ relay.program.functions :=
    List.mem_cons_self
  obtain ⟨text, first, second⟩ := texts target reordered returned reorders _ listed
  obtain ⟨text', first', third⟩ := bodies relay.program.arena ⟨2⟩ ⟨3⟩ self'
    (fun _ _ _ _ _ _ _ => rfl) target changed returned changes _ listed (by decide)
  cases first.symm.trans first'
  have name : relay.names.text ⟨1⟩ = "first" := by decide +kernel
  rw [name] at first second third
  exact ⟨target, reordered, changed, returned, reorders, changes, text, first, second, third⟩

end Programs

end TreeLowering.Lowering
