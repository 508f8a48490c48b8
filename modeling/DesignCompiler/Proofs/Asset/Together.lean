import DesignCompiler.Proofs.Asset.Survival
/-!
# Texts that are finished together

Several texts share one table of values, which is made for the keys of all of them: a key that two
texts have is fetched once, and an answer is used up when it has been read. A text could be changed
by its neighbours where they take an answer from it, or where the table for more keys had another
value for one of its own.

Neither happens. Whatever keys the table is made for, it has the final value of each of them
(`assetValue_resolveAssets`), and that is a matter of the key and the source. So putting images in
is one function on texts, `finalText`, which `finalizeAssets` applies to each.
-/

namespace DesignCompiler

/-- A text with the final value of each key in the place of its references. -/
def finalText (source : Option AssetSource) (text : String) : String :=
  String.ofList (written (finalValue source) (references text))

/-- **Texts that are finalized together** come out as each does by itself. -/
theorem finalizeAssets_eq_map (source : Option AssetSource) (texts : List String) :
    finalizeAssets source texts = texts.map (finalText source) := by
  rw [finalizeAssets]
  refine List.map_congr_left fun text htext => String.toList_injective ?_
  rw [toList_substitute htext, finalText, String.toList_ofList]

/-- **Finishing texts together is finishing each of them alone,** whatever keys they share and
whichever of them cannot be had: each text of the one is the only text of the other. -/
theorem finalizeAssets_apart (source : Option AssetSource) (texts : List String) :
    (finalizeAssets source texts).map (fun final => [final]) =
      texts.map fun text => finalizeAssets source [text] := by
  rw [finalizeAssets_eq_map, List.map_map]
  refine List.map_congr_left fun text _ => ?_
  rw [finalizeAssets_eq_map, Function.comp_apply, List.map_singleton]

end DesignCompiler
