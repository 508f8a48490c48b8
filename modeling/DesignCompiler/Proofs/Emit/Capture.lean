import DesignCompiler.Proofs.Code.Scaffold
import DesignCompiler.Proofs.Emit.Callees
/-!
# Names that capture a class

A generated class whose name is that of a class it uses takes the place of the one that is meant.
The namer keeps clear of a list of words that is kept by hand, and the classes in use are spread
over all of the output, so it is a question whether the list has them all. It has not:
`Flutter.capturesNothing_emit_iff` says for which names a class is captured. They are the classes of
the scaffold, and those that the expression calls and the list leaves out.

Where the wanted name is on the list, a number goes behind it, and no class in use ends in a digit
(`Flutter.numbered_not_mem_classes`).
-/

namespace DesignCompiler

/-- The class of what is called: the text in front of a point, if there is one. -/
def classPart (callee : String) : String := String.ofList (callee.toList.takeWhile (· != '.'))

/-- Everything that is called in what a component returns. -/
def Module.callees (m : Module) : List String := m.body.flatMap (·.callees)

/-- The classes that a scaffold uses by itself. -/
def templateClasses : List String :=
  ["App", "MaterialApp", "Scaffold", "Builder", "StatelessWidget"]

/-- **What it means that a module captures no class:** none that it uses has its name, nor has any
that the scaffold uses, and nothing is declared twice in the scaffold. -/
structure Module.CapturesNothing (m : Module) : Prop where
  callees : ∀ callee ∈ m.callees, m.name ≠ classPart callee
  declared : (declaredClasses m.scaffold).Nodup
  template : m.name ∉ templateClasses

namespace Flutter

/-! ### The module of a tree -/

/-- The scaffold of a tree declares the program and the component. -/
theorem declaredClasses_scaffold (w : Widget) :
    declaredClasses (emit w).scaffold = ["App", (emit w).name] := by
  have hname : IsIdentifier (emit w).name := by
    rw [name_emit]
    exact Namer.isIdentifier_nameIt _ _
  have hcallees : ∀ callee ∈ callees, OneLine callee := fun callee h => (tame_callees callee h).oneLine
  have hclass := Module.declaredClasses_dartClass (body_emit w) hname
    ((built_expr w none).indented_write (fun _ h => h) hcallees 2 (by decide))
  -- Which lines are imported depends on two questions about the tree, and no line declares a class.
  have hlines : ∀ line ∈ lines (emit w).importLines.toList, declaredClass? line = none := by
    rw [Module.importLines, emit_eq]
    dsimp only
    cases w.walk.any isBlur <;> cases w.walk.any isDrawing <;> decide +kernel
  rw [Module.scaffold, language_emit]
  refine Module.declaredClasses_dartScaffold hname (Module.declaredClasses_extraImports hlines) ?_
  rw [Module.code, language_emit]
  exact hclass

/-- The classes that an expression calls. -/
def usedClasses (e : Expr) : List String := e.callees.map classPart

/-- A module captures nothing if its name is no class in use. -/
theorem capturesNothing_emit {w : Widget} : (emit w).CapturesNothing ↔
    (emit w).name ∉ templateClasses ∧ (emit w).name ∉ usedClasses (expr none w) := by
  have hcallees : (emit w).callees = (expr none w).callees := by
    rw [Module.callees, body_emit, List.flatMap_singleton]
  -- What the module calls is what the expression calls, and the scaffold declares its own class
  -- besides.
  constructor
  · intro h
    refine ⟨h.template, fun hmem => ?_⟩
    obtain ⟨callee, hcallee, hclass⟩ := List.mem_map.mp hmem
    exact h.callees callee (hcallees ▸ hcallee) hclass.symm
  · rintro ⟨htemplate, hused⟩
    refine ⟨fun callee hcallee hname => hused ?_, ?_, htemplate⟩
    · exact hname ▸ List.mem_map_of_mem (hcallees ▸ hcallee)
    · have hprogram : "App" ≠ (emit w).name := by
        intro h
        exact htemplate (h ▸ List.mem_cons_self)
      rw [declaredClasses_scaffold]
      simpa using hprogram

/-- A name with a number behind it is no class in use, since no class ends in a digit. -/
theorem numbered_not_mem_classes (base : String) (count : Nat) {e : Expr}
    (h : e.Built OneLine callees) :
    base ++ toString count ∉ templateClasses ∧ base ++ toString count ∉ usedClasses e := by
  -- A name that ends in a number ends in a digit.
  have hnumber : ∀ name : String, name.toList.getLast?.all (!·.isDigit) = true →
      base ++ toString count ≠ name := by
    rintro name hlast rfl
    have hdigits : (toString count).toList = Nat.toDigits 10 count := by simp
    rw [String.toList_append, hdigits, List.getLast?_append_of_ne_nil _ Nat.toDigits_ne_nil,
      List.getLast?_eq_some_getLast Nat.toDigits_ne_nil] at hlast
    have hdigit := Nat.isDigit_of_mem_toDigits (by decide) (by decide)
      (List.getLast_mem (Nat.toDigits_ne_nil (b := 10) (n := count)))
    simp [hdigit] at hlast
  constructor
  · have htemplate : (templateClasses.all fun name =>
        name.toList.getLast?.all (!·.isDigit)) = true := by decide +kernel
    exact fun hmem => hnumber _ (List.all_eq_true.mp htemplate _ hmem) rfl
  · have hcalled : (callees.all fun callee =>
        (callee.toList.takeWhile (· != '.')).getLast?.all (!·.isDigit)) = true := by decide +kernel
    intro hmem
    obtain ⟨callee, hcallee, hclass⟩ := List.mem_map.mp hmem
    have hlast := List.all_eq_true.mp hcalled callee (h.mem_callees callee hcallee)
    refine hnumber (classPart callee) ?_ hclass.symm
    rw [classPart, String.toList_ofList]
    exact hlast

/-! ### The law -/

/-- **A Flutter file captures a class** exactly when the identifier for the name of its root is a
class of the scaffold, or one that is called and that the reserved words leave out. -/
theorem capturesNothing_emit_iff (w : Widget) :
    (emit w).CapturesNothing ↔
      legalIdentifier w.unwrapped.key.name ∉ templateClasses ∧
        ¬(legalIdentifier w.unwrapped.key.name ∈ usedClasses (expr none w) ∧
          legalIdentifier w.unwrapped.key.name ∉ ReservedWords.dart.words) := by
  have hbuilt := built_expr w none
  rw [capturesNothing_emit, name_emit, Widget.componentName]
  by_cases hreserved : legalIdentifier w.unwrapped.key.name ∈ ReservedWords.dart.words
  · -- A number goes behind a reserved word, and the scaffold uses no reserved word.
    have htemplate : ∀ word ∈ ReservedWords.dart.words, word ∉ templateClasses := by decide
    obtain ⟨count, hname⟩ : ∃ count : Nat, (Namer.nameIt ⟨w.id, .dart, [], .empty⟩
        w.unwrapped.key.name).1 = legalIdentifier w.unwrapped.key.name ++ toString count := by
      have hfree : Namer.isFree ⟨w.id, .dart, [], .empty⟩
          (legalIdentifier w.unwrapped.key.name) = false := by
        simp [Namer.isFree, hreserved]
      simp only [Namer.nameIt, hfree, Bool.false_eq_true, if_false]
      exact ⟨_, rfl⟩
    rw [hname]
    exact iff_of_true (numbered_not_mem_classes _ count hbuilt)
      ⟨htemplate _ hreserved, fun h => h.2 hreserved⟩
  · have hname : (Namer.nameIt ⟨w.id, .dart, [], .empty⟩ w.unwrapped.key.name).1 =
        legalIdentifier w.unwrapped.key.name := by
      have hfree : Namer.isFree ⟨w.id, .dart, [], .empty⟩
          (legalIdentifier w.unwrapped.key.name) = true := by
        simp [Namer.isFree, hreserved]
      simp only [Namer.nameIt, hfree, if_true]
    rw [hname]
    simp only [hreserved, not_false_eq_true, and_true]

/-- A box that has the name of the program of a scaffold. -/
def appBox : Widget := .box ⟨"1:1", "App", none⟩ {} (.container .rectangle false) []

/-- A turned box that has the name of what turns it. -/
def turnedBox : Widget :=
  .wrap ⟨"1:1.rotation", "", none⟩ {} (.rotation 1)
    (.box ⟨"1:1", "Transform", none⟩ {} (.container .rectangle false) [])

/-- **Classes are captured:** the program of the scaffold is declared twice, and a turned component
calls itself. -/
theorem emit_captures :
    ¬(emit appBox).CapturesNothing ∧ ¬(emit turnedBox).CapturesNothing := by
  have happ : (emit appBox).name = "App" := by
    rw [name_emit]
    decide
  have hturned : (emit turnedBox).name = "Transform" := by
    rw [name_emit]
    decide
  rw [capturesNothing_emit, capturesNothing_emit, happ, hturned]
  constructor
  · exact fun h => h.1 (by decide)
  · exact fun h => h.2 (by decide)

end Flutter

end DesignCompiler
