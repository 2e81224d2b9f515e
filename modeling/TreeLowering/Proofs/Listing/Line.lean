/-
This file shows that everything a listing writes stays on one line. A text can only break its line
through a name that stands in it: numbers, opcodes and the quoted forms of characters and bytes hold
no line feed. So each piece of a listing is on one line as soon as the names it mentions are.
-/

import TreeLowering.Ir.Listing
import TreeLowering.Proofs.Ssa.Certificate
import Mathlib.Tactic.SplitIfs

namespace TreeLowering.Ir

/-! ### The names a listing mentions -/

namespace Ty

mutual

/-- The names of the structs and of the unresolved types that a type mentions. -/
def names : Ty → List String
  | prim _ | label => []
  | ptr pointee _ => names pointee
  | array elem _ | slice elem => names elem
  | struct name | unresolved name => [name]
  | func params ret => namesAll params ++ names ret

def namesAll : List Ty → List String
  | [] => []
  | ty :: rest => names ty ++ namesAll rest

end

end Ty

namespace Constant

mutual

/-- The globals over which a constant has slices. -/
def names : Constant → List String
  | slice global _ => [global]
  | array items | struct items => namesAll items
  | _ => []

def namesAll : List Constant → List String
  | [] => []
  | item :: rest => names item ++ namesAll rest

end

end Constant

def ValueName.names : ValueName → List String
  | temp _ => []
  | named text => [text]

/-- The names an operand is written with, those of its type not counted. -/
def Value.names : Value → List String
  | .reg name _ => name.names
  | .param name _ | .global name _ => [name]
  | .label _ | .undef _ => []
  | .const value _ => value.names

namespace Operation

/-- The types an operation mentions: those of its operands, and the one it reserves or steps into. -/
def types (op : Operation) : List Ty :=
  op.operands.map Value.ty ++
    match op with
    | alloca allocated => [allocated]
    | gep baseTy _ _ => [baseTy]
    | _ => []

end Operation

namespace Block

def types (block : Block) : List Ty :=
  block.insts.toList.flatMap (fun inst => inst.ty :: inst.op.types) ++
    (block.terminator.toList.flatMap Terminator.operands).map Value.ty

/-- The label of a block and the names of its registers and operands. -/
def names (block : Block) : List String :=
  block.label :: block.insts.toList.flatMap (fun inst =>
      inst.name.names ++ inst.op.operands.flatMap Value.names) ++
    (block.terminator.toList.flatMap Terminator.operands).flatMap Value.names

end Block

namespace Function

def types (function : Function) : List Ty :=
  function.ret :: function.params.map Param.ty ++ function.blocks.toList.flatMap Block.types

def names (function : Function) : List String :=
  function.name :: function.params.map Param.name ++ function.blocks.toList.flatMap Block.names

end Function

namespace Module

/-- Every name of a struct or an unresolved type in a module. -/
def typeNames (target : Module) : List String :=
  target.types.toList.flatMap (fun entry => entry.name :: Ty.namesAll (entry.fields.getD [])) ++
    Ty.namesAll (target.globals.toList.map Global.ty) ++
    Ty.namesAll (target.functions.toList.flatMap Function.types)

/-- Every other name in a module, and all labels. -/
def names (target : Module) : List String :=
  target.globals.toList.flatMap (fun entry => entry.name :: entry.init.names) ++
    target.functions.toList.flatMap Function.names

end Module

/-! ### Texts without a mark -/

/-- A text in which a character does not occur. -/
def Lacks (mark : Char) (text : String) : Prop := mark ∉ text.toList

instance (mark : Char) (text : String) : Decidable (Lacks mark text) :=
  inferInstanceAs (Decidable (_ ∉ _))

/-- A text without a line feed. -/
abbrev OneLine (text : String) : Prop := Lacks '\n' text

section Lacks

variable {mark : Char}

@[simp] theorem lacks_append (left right : String) :
    Lacks mark (left ++ right) ↔ Lacks mark left ∧ Lacks mark right := by
  simp [Lacks, String.toList_append, not_or]

@[simp] theorem lacks_ofList (text : List Char) : Lacks mark (String.ofList text) ↔ mark ∉ text := by
  simp [Lacks, String.toList_ofList]

/-- A text over an alphabet lacks every character outside it. -/
theorem Lacks.of_alphabet {alphabet : List Char} (foreign : mark ∉ alphabet) {text : String}
    (within : text.toList ⊆ alphabet) : Lacks mark text :=
  fun found => foreign (within found)

theorem lacks_commaList (noComma : Lacks mark ", ") {texts : List String}
    (each : ∀ text ∈ texts, Lacks mark text) : Lacks mark (commaList texts) := by
  unfold commaList
  induction texts with
  | nil => exact List.not_mem_nil
  | cons text rest ih =>
    rw [List.forall_mem_cons] at each
    cases rest with
    | nil => simpa using each.1
    | cons next rest =>
      rw [String.intercalate_cons_cons, lacks_append, lacks_append]
      exact ⟨⟨each.1, noComma⟩, ih each.2⟩

/-! ### Numbers -/

/-- The characters of numbers up to base sixteen. -/
def digitAlphabet : List Char := "0123456789abcdef".toList

theorem digitChar_mem : ∀ digit < 16, Nat.digitChar digit ∈ digitAlphabet := by
  decide

theorem toDigits_mem {base : Nat} (large : 1 < base) (known : base ≤ 16) (number : Nat) :
    ∀ c ∈ Nat.toDigits base number, c ∈ digitAlphabet := by
  induction number using Nat.strongRecOn with
  | ind number ih =>
    rcases Nat.lt_or_ge number base with small | many
    · rw [Nat.toDigits_of_lt_base small, List.forall_mem_singleton]
      exact digitChar_mem number (by omega)
    · have digit := Nat.mod_lt number (show 0 < base by omega)
      rw [Nat.toDigits_of_base_le large many, List.forall_mem_append, List.forall_mem_singleton]
      exact ⟨ih _ (Nat.div_lt_self (by omega) large), digitChar_mem _ (by omega)⟩

theorem lacks_nat (foreign : mark ∉ digitAlphabet) (number : Nat) : Lacks mark (toString number) := by
  rw [Nat.toString_eq_repr]
  refine .of_alphabet foreign ?_
  rw [Nat.toList_repr]
  exact toDigits_mem (by decide) (by decide) number

theorem lacks_word (foreign : mark ∉ digitAlphabet) (number : UInt64) :
    Lacks mark (toString number) :=
  lacks_nat foreign number.toNat

/-! ### Types -/

namespace Ty

/-- The characters of types, those of names not counted. -/
def alphabet : List Char := digitAlphabet ++ "ghijklmnopqrstuvwxyz %,()->[]".toList

variable (foreign : mark ∉ alphabet)
include foreign

mutual

/-- A character foreign to types stands in the text of a type only as part of a name. -/
theorem lacks_text : ∀ ty : Ty, (∀ name ∈ ty.names, Lacks mark name) → Lacks mark ty.text
  | prim found, _ => .of_alphabet foreign (by cases found <;> decide)
  | ptr pointee false, plain =>
    (lacks_append _ _).2 ⟨.of_alphabet foreign (by decide), lacks_text pointee plain⟩
  | ptr pointee true, plain =>
    (lacks_append _ _).2 ⟨.of_alphabet foreign (by decide), lacks_text pointee plain⟩
  | array elem len, plain => by
    simp only [text, lacks_append]
    exact ⟨⟨⟨⟨.of_alphabet foreign (by decide),
      lacks_word (fun digit => foreign (List.mem_append_left _ digit)) len⟩,
      .of_alphabet foreign (by decide)⟩, lacks_text elem plain⟩, .of_alphabet foreign (by decide)⟩
  | struct name, plain =>
    (lacks_append _ _).2 ⟨.of_alphabet foreign (by decide), plain name List.mem_cons_self⟩
  | slice elem, plain =>
    (lacks_append _ _).2 ⟨.of_alphabet foreign (by decide), lacks_text elem plain⟩
  | func params ret, plain => by
    simp only [names, List.forall_mem_append] at plain
    simp only [text, lacks_append]
    exact ⟨⟨⟨.of_alphabet foreign (by decide), lacks_textAll params plain.1⟩,
      .of_alphabet foreign (by decide)⟩, lacks_text ret plain.2⟩
  | label, _ => .of_alphabet foreign (by decide)
  | unresolved name, plain =>
    (lacks_append _ _).2 ⟨.of_alphabet foreign (by decide), plain name List.mem_cons_self⟩

theorem lacks_textAll : ∀ types : List Ty, (∀ name ∈ namesAll types, Lacks mark name) →
    Lacks mark (textAll types)
  | [], _ => List.not_mem_nil
  | [ty], plain => lacks_text ty (by simpa [namesAll] using plain)
  | ty :: next :: rest, plain => by
    rw [namesAll, List.forall_mem_append] at plain
    simp only [textAll, lacks_append]
    exact ⟨⟨lacks_text ty plain.1, .of_alphabet foreign (by decide)⟩,
      lacks_textAll (next :: rest) plain.2⟩

end

end Ty

end Lacks

namespace Ty

theorem mem_namesAll {types : List Ty} {name : String} :
    name ∈ namesAll types ↔ ∃ ty ∈ types, name ∈ ty.names := by
  induction types with
  | nil => simp [namesAll]
  | cons ty rest ih => simp [namesAll, ih]

end Ty

/-! ### Constants -/

/-- Whether a character is printable ASCII. -/
def isPrintable (c : Char) : Bool := 0x20 ≤ c.toNat && c.toNat ≤ 0x7e

section Hidden

variable {mark : Char} (hidden : isPrintable mark = false)
include hidden

theorem not_mem_of_printable {text : List Char} (plain : text.all isPrintable = true) :
    mark ∉ text :=
  fun found => Bool.false_ne_true (hidden.symm.trans (List.all_eq_true.1 plain mark found))

theorem Lacks.of_printable {text : String} (plain : text.toList.all isPrintable = true) :
    Lacks mark text :=
  not_mem_of_printable hidden plain

theorem not_mem_digitAlphabet : mark ∉ digitAlphabet := not_mem_of_printable hidden (by decide)

theorem lacks_int (number : Int) : Lacks mark (toString number) := by
  have digits := lacks_nat (not_mem_digitAlphabet hidden)
  cases number with
  | ofNat number => exact digits number
  | negSucc number =>
    exact (lacks_append "-" _).2 ⟨.of_printable hidden (by decide), digits (number + 1)⟩

namespace Constant

theorem lacks_quotedChar (c : Char) : Lacks mark (quotedChar c) := by
  unfold quotedChar
  split_ifs with _ _ _ _ _ _ shown
  iterate 6 exact .of_printable hidden (by decide)
  · refine .of_printable hidden ?_
    simpa [isPrintable] using shown
  · simp only [lacks_append, hexDigits, lacks_ofList]
    exact ⟨⟨.of_printable hidden (by decide), fun found => not_mem_digitAlphabet hidden
      (toDigits_mem (by decide) (by decide) _ _ found)⟩, .of_printable hidden (by decide)⟩

omit hidden in
theorem isPrintable_hexDigit : ∀ number < 16, isPrintable (hexDigit number) = true := by
  decide

omit hidden in
theorem isPrintable_ofNat : ∀ code < 0x7f, 0x20 ≤ code → isPrintable (Char.ofNat code) = true := by
  decide

theorem not_mem_quotedByte (byte : UInt8) : mark ∉ quotedByte byte := by
  have small := byte.toNat_lt
  refine not_mem_of_printable hidden (List.all_eq_true.2 ?_)
  unfold quotedByte
  split
  · next plain =>
    simp only [isPlainByte, Bool.and_eq_true, decide_eq_true_eq, UInt8.le_iff_toNat_le] at plain
    obtain ⟨⟨⟨low, high⟩, _⟩, _⟩ := plain
    rw [List.forall_mem_singleton]
    exact isPrintable_ofNat _ (Nat.lt_succ_of_le high) low
  · rw [List.forall_mem_cons, List.forall_mem_cons, List.forall_mem_singleton]
    exact ⟨by decide, isPrintable_hexDigit _ (by omega), isPrintable_hexDigit _ (by omega)⟩

mutual

/-- An unprintable character stands in the text of a constant only as part of a name. -/
theorem lacks_text : ∀ constant : Constant, (∀ name ∈ constant.names, Lacks mark name) →
    Lacks mark constant.text
  | int value, _ => lacks_int hidden value
  | bool true, _ => .of_printable hidden (by decide)
  | bool false, _ => .of_printable hidden (by decide)
  | char value, _ => by
    simp only [text, lacks_append]
    exact ⟨⟨.of_printable hidden (by decide), lacks_quotedChar hidden value⟩,
      .of_printable hidden (by decide)⟩
  | bytes content, _ => by
    simp only [text, lacks_append, lacks_ofList, List.mem_flatMap, not_exists, not_and]
    exact ⟨⟨.of_printable hidden (by decide), fun byte _ => not_mem_quotedByte hidden byte⟩,
      .of_printable hidden (by decide)⟩
  | slice global len, plain => by
    simp only [text, lacks_append]
    exact ⟨⟨⟨⟨.of_printable hidden (by decide), plain global List.mem_cons_self⟩,
      .of_printable hidden (by decide)⟩, lacks_word (not_mem_digitAlphabet hidden) len⟩,
      .of_printable hidden (by decide)⟩
  | array items, plain => by
    simp only [text, lacks_append]
    exact ⟨⟨.of_printable hidden (by decide), lacks_textAll items plain⟩,
      .of_printable hidden (by decide)⟩
  | struct items, plain => by
    simp only [text, lacks_append]
    exact ⟨⟨.of_printable hidden (by decide), lacks_textAll items plain⟩,
      .of_printable hidden (by decide)⟩
  | unit, _ => .of_printable hidden (by decide)

theorem lacks_textAll : ∀ items : List Constant, (∀ name ∈ namesAll items, Lacks mark name) →
    Lacks mark (textAll items)
  | [], _ => List.not_mem_nil
  | [item], plain => lacks_text item (by simpa [namesAll] using plain)
  | item :: next :: rest, plain => by
    rw [namesAll, List.forall_mem_append] at plain
    simp only [textAll, lacks_append]
    exact ⟨⟨lacks_text item plain.1, .of_printable hidden (by decide)⟩,
      lacks_textAll (next :: rest) plain.2⟩

end

end Constant

end Hidden

theorem Constant.oneLine_text (constant : Constant) (plain : ∀ name ∈ constant.names, OneLine name) :
    OneLine constant.text :=
  constant.lacks_text (by decide) plain

/-! ### Operands -/

theorem ValueName.oneLine_text {name : ValueName} (plain : ∀ text ∈ name.names, OneLine text) :
    OneLine name.text := by
  cases name with
  | temp number => exact (lacks_append _ _).2 ⟨by decide, lacks_nat (by decide) number⟩
  | named text => exact (lacks_append _ _).2 ⟨by decide, plain text List.mem_cons_self⟩

theorem Value.oneLine_text {value : Value} (plain : ∀ name ∈ value.names, OneLine name) :
    OneLine value.text := by
  cases value with
  | reg name ty => exact name.oneLine_text plain
  | param name ty => exact (lacks_append _ _).2 ⟨by decide, plain name List.mem_cons_self⟩
  | global name ty => exact (lacks_append _ _).2 ⟨by decide, plain name List.mem_cons_self⟩
  | label block => exact (lacks_append _ _).2 ⟨by decide, lacks_nat (by decide) block.index⟩
  | undef ty => exact show OneLine "undef" by decide
  | const value ty => exact value.oneLine_text plain

namespace Function

/-- All names that a function mentions are on one line. -/
structure Plain (function : Function) : Prop where
  names : ∀ name ∈ function.names, OneLine name
  types : ∀ ty ∈ function.types, ∀ name ∈ ty.names, OneLine name

variable {function : Function}

theorem Plain.ofBlock (plain : function.Plain) {block : Block} (member : block ∈ function.blocks) :
    (∀ name ∈ block.names, OneLine name) ∧ ∀ ty ∈ block.types, OneLine ty.text := by
  have listed := Array.mem_toList_iff.2 member
  refine ⟨fun name found => plain.names name ?_,
    fun ty found => ty.lacks_text (by decide) (plain.types ty ?_)⟩
  · exact List.mem_append_right _ (List.mem_flatMap.2 ⟨block, listed, found⟩)
  · exact List.mem_append_right _ (List.mem_flatMap.2 ⟨block, listed, found⟩)

theorem oneLine_label (plain : function.Plain) (block : BlockId) :
    OneLine (function.label block) := by
  unfold Function.label
  split
  · next found here =>
    exact (plain.ofBlock (Array.mem_of_getElem? here)).1 _ (List.mem_append_left _ List.mem_cons_self)
  · decide

theorem oneLine_operandText (plain : function.Plain) {value : Value}
    (named : ∀ name ∈ value.names, OneLine name) : OneLine (function.operandText value) := by
  unfold operandText
  split
  · exact (lacks_append _ _).2 ⟨by decide, oneLine_label plain _⟩
  · exact value.oneLine_text named

/-! ### Instructions and terminators -/

theorem oneLine_opcodeText : ∀ op : Operation, OneLine (opcodeText op)
  | .const _ => show OneLine "const" by decide
  | .alloca _ => show OneLine "alloca" by decide
  | .load _ => show OneLine "load" by decide
  | .store .. => show OneLine "store" by decide
  | .binary op .. => show OneLine op.text by cases op <;> decide
  | .unary op _ => show OneLine op.text by cases op <;> decide
  | .cmp pred .. => show OneLine ("cmp " ++ pred.text) by cases pred <;> decide
  | .call .. => show OneLine "call" by decide
  | .gep .. => show OneLine "gep" by decide
  | .phi _ => show OneLine "phi" by decide
  | .cast kind _ => show OneLine kind.text by cases kind <;> decide

theorem oneLine_incomingText (plain : function.Plain) {incoming : Value × BlockId}
    (named : ∀ name ∈ incoming.1.names, OneLine name) : OneLine (function.incomingText incoming) := by
  simp only [incomingText, lacks_append]
  exact ⟨⟨⟨⟨by decide, oneLine_operandText plain named⟩, by decide⟩, oneLine_label plain _⟩,
    by decide⟩

theorem oneLine_operationText (plain : function.Plain) {ty : Ty} {op : Operation}
    (typed : OneLine ty.text) (named : ∀ name ∈ op.operands.flatMap Value.names, OneLine name) :
    OneLine (function.operationText ty op) := by
  have one {value : Value} (read : value ∈ op.operands) : OneLine (function.operandText value) :=
    oneLine_operandText plain fun name found => named name (List.mem_flatMap.2 ⟨value, read, found⟩)
  have several {values : List Value} (read : values ⊆ op.operands) :
      OneLine (function.operandsText values) :=
    lacks_commaList (by decide) (List.forall_mem_map.2 fun value member => one (read member))
  cases op with
  | alloca allocated => exact show OneLine "" by decide
  | const value => exact (lacks_append _ _).2 ⟨by decide, one (by simp [Operation.operands])⟩
  | load address => exact (lacks_append _ _).2 ⟨by decide, one (by simp [Operation.operands])⟩
  | unary op operand => exact (lacks_append _ _).2 ⟨by decide, one (by simp [Operation.operands])⟩
  | store address value =>
    exact (lacks_append _ _).2 ⟨by decide, several (by simp [Operation.operands])⟩
  | binary op left right =>
    exact (lacks_append _ _).2 ⟨by decide, several (by simp [Operation.operands])⟩
  | cmp pred left right =>
    exact (lacks_append _ _).2 ⟨by decide, several (by simp [Operation.operands])⟩
  | gep baseTy base indices =>
    exact (lacks_append _ _).2 ⟨by decide, several (by simp [Operation.operands])⟩
  | call callee args =>
    simp only [operationText, lacks_append]
    exact ⟨⟨⟨⟨by decide, one List.mem_cons_self⟩, by decide⟩, several (List.subset_cons_self _ _)⟩,
      by decide⟩
  | phi incoming =>
    refine (lacks_append _ _).2 ⟨by decide, lacks_commaList (by decide) (List.forall_mem_map.2 ?_)⟩
    intro arm member
    refine oneLine_incomingText plain fun name found => named name (List.mem_flatMap.2 ?_)
    exact ⟨arm.1, List.mem_map_of_mem member, found⟩
  | cast kind value =>
    simp only [operationText, lacks_append]
    exact ⟨⟨⟨by decide, one List.mem_cons_self⟩, by decide⟩, typed⟩

/-- The type that an instruction is written with is its own, or one its operation mentions. -/
theorem displayTy_mem (inst : Instruction) : inst.displayTy ∈ inst.ty :: inst.op.types := by
  obtain ⟨name, ty, op⟩ := inst
  cases op <;> simp [Instruction.displayTy, Operation.types, Operation.operands]

theorem oneLine_instructionText (plain : function.Plain) {block : Block}
    (member : block ∈ function.blocks) {inst : Instruction} (listed : inst ∈ block.insts) :
    OneLine (function.instructionText inst) := by
  obtain ⟨names, types⟩ := plain.ofBlock member
  have named : ∀ name ∈ inst.name.names ++ inst.op.operands.flatMap Value.names, OneLine name := by
    refine fun name found => names name (List.mem_append_left _ (List.mem_cons_of_mem _ ?_))
    exact List.mem_flatMap.2 ⟨inst, Array.mem_toList_iff.2 listed, found⟩
  have typed : ∀ ty ∈ inst.ty :: inst.op.types, OneLine ty.text := by
    refine fun ty found => types ty (List.mem_append_left _ ?_)
    exact List.mem_flatMap.2 ⟨inst, Array.mem_toList_iff.2 listed, found⟩
  rw [List.forall_mem_append] at named
  simp only [instructionText, lacks_append]
  exact ⟨⟨⟨⟨⟨inst.name.oneLine_text named.1, by decide⟩, oneLine_opcodeText _⟩, by decide⟩,
    typed _ (displayTy_mem inst)⟩,
    oneLine_operationText plain (typed _ List.mem_cons_self) named.2⟩

theorem oneLine_terminatorText (plain : function.Plain) {block : Block}
    (member : block ∈ function.blocks) {terminator : Terminator}
    (closed : block.terminator = some terminator) : OneLine (function.terminatorText terminator) := by
  obtain ⟨names, types⟩ := plain.ofBlock member
  have read (value : Value) (operand : value ∈ terminator.operands) :
      OneLine (function.operandText value) ∧ OneLine value.ty.text := by
    have found : value ∈ block.terminator.toList.flatMap Terminator.operands := by
      rwa [closed, Option.toList_some, List.flatMap_singleton]
    refine ⟨oneLine_operandText plain fun name mentioned => names name ?_, types _ ?_⟩
    · exact List.mem_append_right _ (List.mem_flatMap.2 ⟨value, found, mentioned⟩)
    · exact List.mem_append_right _ (List.mem_map_of_mem found)
  match terminator with
  | .ret none => exact show OneLine "ret void" by decide
  | .ret (some value) =>
    obtain ⟨text, typed⟩ := read value (by simp [Terminator.operands])
    simp only [terminatorText, lacks_append]
    exact ⟨⟨⟨by decide, typed⟩, by decide⟩, text⟩
  | .branch test thenBlock elseBlock =>
    simp only [terminatorText, lacks_append]
    exact ⟨⟨⟨⟨⟨by decide, (read test List.mem_cons_self).1⟩, by decide⟩, oneLine_label plain _⟩,
      by decide⟩, oneLine_label plain _⟩
  | .jump target => exact (lacks_append _ _).2 ⟨by decide, oneLine_label plain _⟩

/-! ### Functions -/

theorem oneLine_blockLines (plain : function.Plain) {block : Block}
    (member : block ∈ function.blocks) : ∀ line ∈ function.blockLines block, OneLine line := by
  simp only [blockLines, List.cons_append, List.forall_mem_cons, List.forall_mem_append,
    List.forall_mem_map, lacks_append]
  refine ⟨⟨(plain.ofBlock member).1 _ (List.mem_append_left _ List.mem_cons_self), by decide⟩,
    fun inst listed => ⟨by decide, ?_⟩, fun terminator closed => ⟨by decide, ?_⟩⟩
  · exact oneLine_instructionText plain member (Array.mem_toList_iff.1 listed)
  · exact oneLine_terminatorText plain member (Option.mem_toList.1 closed)

theorem oneLine_headLine (plain : function.Plain) : OneLine function.headLine := by
  simp only [headLine, lacks_append]
  have typed {ty : Ty} (member : ty ∈ function.ret :: function.params.map Param.ty) :
      OneLine ty.text :=
    ty.lacks_text (by decide) (plain.types ty (List.mem_append_left _ member))
  have named {name : String} (member : name ∈ function.name :: function.params.map Param.name) :
      OneLine name :=
    plain.names name (List.mem_append_left _ member)
  refine ⟨⟨⟨⟨⟨⟨by decide, typed List.mem_cons_self⟩, by decide⟩, named List.mem_cons_self⟩,
    by decide⟩, lacks_commaList (by decide) (List.forall_mem_map.2 fun param member => ?_)⟩, by decide⟩
  simp only [lacks_append]
  exact ⟨⟨typed (List.mem_cons_of_mem _ (List.mem_map_of_mem member)), by decide⟩,
    named (List.mem_cons_of_mem _ (List.mem_map_of_mem member))⟩

theorem oneLine_definitionLines (plain : function.Plain) :
    ∀ line ∈ function.definitionLines, OneLine line := by
  simp only [definitionLines, List.cons_append, List.forall_mem_cons, List.forall_mem_append,
    List.mem_flatMap]
  refine ⟨oneLine_headLine plain, ?_, by decide⟩
  rintro line ⟨block, member, listed⟩
  exact oneLine_blockLines plain (Array.mem_toList_iff.1 member) line listed

theorem oneLine_declarationLine (plain : function.Plain) : OneLine function.declarationLine := by
  simp only [declarationLine, lacks_append]
  refine ⟨⟨⟨⟨⟨⟨by decide, ?_⟩, by decide⟩, ?_⟩, by decide⟩, ?_⟩, by decide⟩
  · exact function.ret.lacks_text (by decide) (plain.types _ (List.mem_append_left _ List.mem_cons_self))
  · exact plain.names _ (List.mem_append_left _ List.mem_cons_self)
  · refine Ty.lacks_textAll (by decide) _ fun name found => ?_
    obtain ⟨ty, member, mentioned⟩ := Ty.mem_namesAll.1 found
    exact plain.types ty (List.mem_append_left _ (List.mem_cons_of_mem _ member)) name mentioned

end Function

/-! ### Modules -/

namespace Module

variable {target : Module}

theorem oneLine_typeDefLine {entry : TypeDef} (named : OneLine entry.name)
    (typed : ∀ name ∈ Ty.namesAll (entry.fields.getD []), OneLine name) : OneLine entry.line := by
  obtain ⟨name, fields⟩ := entry
  cases fields with
  | none => simpa [TypeDef.line] using ⟨⟨by decide, named⟩, by decide⟩
  | some fields =>
    simp only [TypeDef.line, fieldsText, lacks_append]
    exact ⟨⟨⟨by decide, named⟩, by decide⟩, ⟨by decide, Ty.lacks_textAll (by decide) fields typed⟩,
      by decide⟩

theorem oneLine_globalLine {entry : Global} (named : OneLine entry.name)
    (typed : ∀ name ∈ entry.ty.names, OneLine name)
    (content : ∀ name ∈ entry.init.names, OneLine name) : OneLine entry.line := by
  simp only [Global.line, lacks_append]
  exact ⟨⟨⟨⟨⟨by decide, named⟩, by decide⟩, entry.ty.lacks_text (by decide) typed⟩, by decide⟩,
    entry.init.oneLine_text content⟩

/-- Every line of a listing is on one line when all names are. -/
theorem oneLine_sections (plain : ∀ name ∈ target.typeNames ++ target.names, OneLine name) :
    ∀ lines ∈ target.sections, ∀ line ∈ lines, OneLine line := by
  simp only [typeNames, names, List.forall_mem_append, List.mem_flatMap, Ty.mem_namesAll,
    List.mem_map] at plain
  obtain ⟨⟨⟨types, globalTypes⟩, functionTypes⟩, globals, functions⟩ := plain
  have body {function : Function} (member : function ∈ target.functions.toList) : function.Plain :=
    ⟨fun name found => functions name ⟨function, member, found⟩,
      fun ty found name mentioned => functionTypes name ⟨ty, ⟨function, member, found⟩, mentioned⟩⟩
  simp only [sections, List.forall_mem_cons, List.forall_mem_map, List.mem_filter]
  refine ⟨fun entry member => ?_, fun entry member => ?_, fun function member => ?_,
    fun function member => ?_⟩
  · exact oneLine_typeDefLine (types _ ⟨entry, member, List.mem_cons_self⟩)
      fun name found => types name ⟨entry, member, List.mem_cons_of_mem _ found⟩
  · exact oneLine_globalLine (globals _ ⟨entry, member, List.mem_cons_self⟩)
      (fun name found => globalTypes name ⟨entry.ty, ⟨entry, member, rfl⟩, found⟩)
      fun name found => globals name ⟨entry, member, List.mem_cons_of_mem _ found⟩
  · exact Function.oneLine_declarationLine (body member.1)
  · exact Function.oneLine_definitionLines (body member.1)

end Module

end TreeLowering.Ir
