import DesignCompiler.Code.Scaffold
import DesignCompiler.Proofs.Code.Lines
import DesignCompiler.Proofs.Style.Identifier
/-!
# The classes that a scaffold declares

A declaration of a class begins in the first column of a line, so the classes that a text declares
can be read off its lines (`declaredClasses`). The scaffold of a component declares two: the program
that shows it, and the component (`Module.declaredClasses_dartScaffold`). Everything else stands
further in, the expression of the component too, if it is written so (`Indented`).
-/

namespace DesignCompiler

/-! ### Declarations -/

/-- The class that a line declares. -/
def declaredClass? (line : List Char) : Option String :=
  if ['c', 'l', 'a', 's', 's', ' '].isPrefixOf line then
    some (String.ofList ((line.drop 6).takeWhile (· != ' ')))
  else none

/-- **The classes that a text declares,** line by line. -/
def declaredClasses (text : String) : List String :=
  (splitOnChar '\n' text.toList).filterMap declaredClass?

/-- A text that ends a line declares its classes, whatever comes after it. -/
theorem declaredClasses_append {text : String} (h : text.toList.getLast? = some '\n')
    (rest : String) :
    declaredClasses (text ++ rest) = declaredClasses text ++ declaredClasses rest := by
  obtain ⟨before, hbefore⟩ := List.getLast?_eq_some_iff.mp h
  have htext : (text ++ rest).toList = before ++ '\n' :: rest.toList := by simp [hbefore]
  unfold declaredClasses
  rw [htext, hbefore, splitOnChar_append, splitOnChar_append, List.filterMap_append,
    List.filterMap_append]
  simp [splitOnChar, declaredClass?]

/-- A text that declares nothing and ends a line can be passed over. -/
theorem declaredClasses_skip {text : String} (h : text.toList.getLast? = some '\n')
    (hnone : declaredClasses text = []) (rest : String) :
    declaredClasses (text ++ rest) = declaredClasses rest := by
  rw [declaredClasses_append h, hnone, List.nil_append]

/-- Lines that all stand further in declare nothing. -/
theorem declaredClasses_of_indented {text : String} (h : Indented text.toList)
    (hhead : text.toList.head? = some ' ') (rest : String) :
    declaredClasses (text ++ "\n" ++ rest) = declaredClasses rest := by
  refine declaredClasses_skip (by simp) ?_ rest
  have htext : (text ++ "\n").toList = text.toList ++ '\n' :: [] := by simp
  unfold declaredClasses
  rw [htext, splitOnChar_append, List.filterMap_append]
  refine List.append_eq_nil_iff.mpr ⟨List.filterMap_eq_nil_iff.mpr fun line hline => ?_, rfl⟩
  -- A line that is empty or starts with a space declares no class.
  rcases h.lines hhead line hline with rfl | hspace
  · rfl
  · obtain ⟨rest, rfl⟩ := List.head?_eq_some_iff.mp hspace
    rfl

theorem IsIdentifier.oneLine {name : String} (h : IsIdentifier name) : OneLine name :=
  (tame_of_alphanum h.alphanum).oneLine

/-- **A line that begins a class** declares it. -/
theorem declaredClasses_class {name : String} (hname : IsIdentifier name) (rest : String) :
    declaredClasses ("class " ++ name ++ " extends StatelessWidget \x7b\n" ++ rest) =
      name :: declaredClasses rest := by
  have hspace : ∀ c ∈ name.toList, (c != ' ') = true := by
    intro c hc
    rw [bne_iff_ne]
    rintro rfl
    exact absurd (hname.alphanum _ hc) (by decide)
  let line := ['c', 'l', 'a', 's', 's', ' '] ++ (name.toList ++
    " extends StatelessWidget \x7b".toList)
  have htext : ("class " ++ name ++ " extends StatelessWidget \x7b\n" ++ rest).toList =
      line ++ '\n' :: rest.toList := by
    simp [line]
  have hline : '\n' ∉ line := by
    simp only [line, List.mem_append, not_or]
    exact ⟨by decide, hname.oneLine, by decide⟩
  -- The name is read up to the blank behind it.
  have hclass : declaredClass? line = some name := by
    have hdrop : (line.drop 6).takeWhile (· != ' ') = name.toList := by
      show (name.toList ++ ' ' :: _).takeWhile (· != ' ') = name.toList
      rw [List.takeWhile_append_of_pos hspace]
      simp
    have hprefix : ['c', 'l', 'a', 's', 's', ' '].isPrefixOf line = true := by simp [line]
    rw [declaredClass?, if_pos hprefix, hdrop, String.ofList_toList]
  unfold declaredClasses
  rw [htext, splitOnChar_append, splitOnChar_of_not_mem hline, List.filterMap_append,
    List.filterMap_cons_some hclass]
  rfl

/-! ### The text of a scaffold -/

namespace Module

/-- A component declares one class, where its expression stands further in. -/
theorem declaredClasses_dartClass {m : Module} {e : Expr} (hbody : m.body = [e])
    (hname : IsIdentifier m.name) (hwrite : Indented (e.write 2).toList) :
    declaredClasses m.dartClass = [m.name] := by
  have hclass : m.dartClass =
      "class " ++ m.name ++ " extends StatelessWidget \x7b\n" ++
        ("  const " ++ m.name ++ "(\x7bKey? key\x7d) : super(key: key);" ++ "\n" ++
        ("\n" ++ ("  @override\n" ++ ("  Widget build(BuildContext context) \x7b\n" ++
        ("    return " ++ e.write 2 ++ ";" ++ "\n" ++ ("  \x7d\n" ++ "\x7d\n")))))) := by
    have hconstructor : "(\x7bKey? key\x7d) : super(key: key);\n" =
      "(\x7bKey? key\x7d) : super(key: key);" ++ "\n" := by decide
    have hend : ";\n" = ";" ++ "\n" := by decide
    have hjoin : ∀ text, String.join [text] = text := by simp [String.join]
    unfold dartClass
    simp only [hbody, List.map_singleton, hjoin, hconstructor, hend, String.append_assoc]
  have hline : OneLine ("  const " ++ m.name ++ "(\x7bKey? key\x7d) : super(key: key);") := by
    simp +decide [hname.oneLine]
  have hreturn : Indented ("    return " ++ e.write 2 ++ ";").toList := by
    simp only [String.toList_append]
    exact ((show OneLine "    return " by decide).indented.append hwrite).append
      (show OneLine ";" by decide).indented
  -- Behind the line of the class all lines are indented or closing braces, so no other one declares
  -- a class.
  rw [hclass, declaredClasses_class hname, declaredClasses_of_indented hline.indented (by simp)]
  simp (disch := decide) only [declaredClasses_skip]
  rw [declaredClasses_of_indented hreturn (by simp)]
  have hend : declaredClasses ("  \x7d\n" ++ "\x7d\n") = [] := by decide
  rw [hend]

/-- **A scaffold declares two classes,** the program and the component. -/
theorem declaredClasses_dartScaffold {m : Module} (hname : IsIdentifier m.name)
    (himports : ∀ rest, declaredClasses (m.extraImports ++ rest) = declaredClasses rest)
    (hclass : declaredClasses m.code = [m.name]) :
    declaredClasses m.dartScaffold = ["App", m.name] := by
  have hscaffold : m.dartScaffold =
      "import 'package:flutter/material.dart';\n" ++ (m.extraImports ++ ("\nvoid main() \x7b\n" ++
        ("  runApp(const App());\n" ++ ("\x7d\n" ++ ("\n" ++
        ("class App extends StatelessWidget \x7b\n" ++
        ("  const App(\x7bKey? key\x7d) : super(key: key);\n" ++ ("\n" ++ ("  @override\n" ++
        ("  Widget build(BuildContext context) \x7b\n" ++ ("    return MaterialApp(\n" ++
        ("      title: '" ++ m.name ++ "'," ++ "\n" ++
        ("      debugShowCheckedModeBanner: false,\n" ++ ("      home: Scaffold(\n" ++
        ("        body: Builder(\n" ++
        ("          builder: (context) => const " ++ m.name ++ "()," ++ "\n" ++
        ("        ),\n" ++ ("      ),\n" ++ ("    );\n" ++ ("  \x7d\n" ++ ("\x7d\n" ++
        ("\n" ++ m.code)))))))))))))))))))))) := by
    have htitle : "',\n" = "'," ++ "\n" := by decide
    have hbuilder : "(),\n" = "()," ++ "\n" := by decide
    unfold dartScaffold
    simp only [htitle, hbuilder, String.append_assoc]
  have htitle : OneLine ("      title: '" ++ m.name ++ "',") := by
    simp +decide [hname.oneLine]
  have hbuilder : OneLine ("          builder: (context) => const " ++ m.name ++ "(),") := by
    simp +decide [hname.oneLine]
  -- The fixed lines are passed over one by one; those with the name of the module in them are
  -- indented.
  rw [hscaffold, declaredClasses_skip (by decide) (by decide), himports]
  simp (disch := decide) only [declaredClasses_skip]
  rw [declaredClasses_append (by decide)]
  simp (disch := decide) only [declaredClasses_skip]
  rw [declaredClasses_of_indented htitle.indented (by simp)]
  simp (disch := decide) only [declaredClasses_skip]
  rw [declaredClasses_of_indented hbuilder.indented (by simp)]
  simp (disch := decide) only [declaredClasses_skip]
  rw [hclass]
  have happ : declaredClasses "class App extends StatelessWidget \x7b\n" = ["App"] := by decide
  rw [happ]
  rfl

/-- Imports declare nothing. -/
theorem declaredClasses_extraImports {m : Module}
    (h : ∀ line ∈ lines m.importLines.toList, declaredClass? line = none) (rest : String) :
    declaredClasses (m.extraImports ++ rest) = declaredClasses rest := by
  have hkept : ∀ line ∈ (lines m.importLines.toList).filter
      (!occursIn materialPackage.toList ·), '\n' ∉ line ∧ declaredClass? line = none := by
    intro line hline
    obtain ⟨hline, -⟩ := List.mem_filter.mp hline
    exact ⟨line_feed_not_mem_line hline, h line hline⟩
  unfold extraImports
  generalize (lines m.importLines.toList).filter (!occursIn materialPackage.toList ·) = kept
    at hkept ⊢
  -- Each line of an import is kept with its line feed, and declares nothing.
  induction kept with
  | nil => simp [String.join]
  | cons line others ih =>
    obtain ⟨⟨hline, hnone⟩, hothers⟩ := List.forall_mem_cons.mp hkept
    have hdeclared : declaredClasses (String.ofList line ++ "\n") = [] := by
      have htext : (String.ofList line ++ "\n").toList = line ++ '\n' :: [] := by simp
      unfold declaredClasses
      rw [htext, splitOnChar_append, splitOnChar_of_not_mem hline]
      rw [List.filterMap_append, List.filterMap_cons_none hnone]
      rfl
    rw [List.map_cons, String.join_cons, String.append_assoc,
      declaredClasses_skip (by simp) hdeclared, ih hothers]

end Module

end DesignCompiler
