import DesignCompiler.Text.Words
/-!
# Clusters that are characters

Clusters lose nothing of a text (`flatten_clusters`), and a text of ordinary characters has one for
each character (`clusters_of_other`). So the words of such a text, which are cut between clusters,
can be told from its characters (`words_of_other`): both are letters, and a character has the class
of the cluster that it is by itself.
-/

namespace DesignCompiler

/-! ### Clusters -/

/-- What is left of a text and the cluster it begins in are all in its clusters, in order. -/
theorem flatten_clustersFrom (cluster text : List Char) :
    (clustersFrom cluster text).flatten = cluster.reverse ++ text := by
  induction text generalizing cluster with
  | nil => simp [clustersFrom]
  | cons c rest ih =>
    rw [clustersFrom]
    split
    · rw [ih, List.reverse_cons, List.append_assoc, List.singleton_append]
    · rw [List.flatten_cons, ih, List.reverse_singleton, List.singleton_append]

/-- **Clusters are cut out of a text:** joined they are the text again. -/
theorem flatten_clusters (text : List Char) : (clusters text).flatten = text := by
  cases text with
  | nil => rfl
  | cons c rest => exact flatten_clustersFrom [c] rest

/-- Behind an ordinary character another one begins a cluster. -/
theorem clustersFrom_of_other {c : Char} {text : List Char}
    (h : ∀ d ∈ c :: text, clusterClass d = .other) :
    clustersFrom [c] text = (c :: text).map fun d => [d] := by
  induction text generalizing c with
  | nil => rfl
  | cons d rest ih =>
    obtain ⟨hc, hrest⟩ := List.forall_mem_cons.mp h
    -- Between two ordinary characters there is always a break.
    have hcut : ClusterClass.goesOn ([c].map clusterClass) (clusterClass d) = false := by
      rw [List.map_singleton, hc, hrest d List.mem_cons_self]
      rfl
    rw [clustersFrom, hcut, if_neg Bool.false_ne_true, ih hrest]
    rfl

/-- **A text of ordinary characters** has a cluster for each of them. -/
theorem clusters_of_other {text : List Char} (h : ∀ c ∈ text, clusterClass c = .other) :
    clusters text = text.map fun c => [c] := by
  cases text with
  | nil => rfl
  | cons c rest => exact clustersFrom_of_other h

/-- Clusters of one character, joined. -/
theorem flatten_singletons (text : List Char) : (text.map fun c => [c]).flatten = text := by
  rw [← List.flatMap_def, List.flatMap_singleton']

/-! ### Words of characters -/

/-- Whether a word ends is the same between clusters of one character and between characters. -/
theorem endsWord_singletons (c : Char) (rest : List Char) :
    endsWord [c] (rest.map fun d => [d]) = endsWord c rest := by
  cases rest with
  | nil => rfl
  | cons d more => cases more <;> rfl

/-- Word boundaries are drawn alike between clusters of one character and between characters. -/
theorem wordPieces_singletons (text : List Char) :
    wordPieces (text.map fun c => [c]) = (wordPieces text).map (List.map fun c => [c]) := by
  induction text with
  | nil => rfl
  | cons c rest ih =>
    have hseparator : isWordSeparator [c] = isWordSeparator c := rfl
    rw [List.map_cons, wordPieces, wordPieces, ih, endsWord_singletons, hseparator]
    -- The three ways a character is taken in are the same for it and for its cluster.
    cases wordPieces rest with
    | nil => rfl
    | cons piece pieces =>
      simp only [List.map_cons]
      split
      · rfl
      · split <;> rfl

/-- **The words of a text of ordinary characters** are cut between its characters. -/
theorem words_of_other {text : List Char} (h : ∀ c ∈ text, clusterClass c = .other) :
    words text = (wordPieces text).filter (!·.isEmpty) := by
  have hsame : (List.flatten ∘ List.map fun c => [c]) = (id : List Char → List Char) :=
    funext flatten_singletons
  rw [words, clusters_of_other h, wordPieces_singletons, List.map_map, hsame, List.map_id]

/-- A word of ordinary characters has its first character in upper case. -/
theorem capitalize_of_other {c : Char} {word : List Char}
    (h : ∀ d ∈ c :: word, clusterClass d = .other) :
    capitalize (c :: word) = upperChar c ++ lowerText word := by
  rw [capitalize, clusters_of_other h, List.map_cons]
  simp only [upperText, List.flatMap_singleton, flatten_singletons]

end DesignCompiler
