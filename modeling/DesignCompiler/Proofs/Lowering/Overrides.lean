import DesignCompiler.Proofs.Lowering.Steps
/-!
# Flags count at their own node

A layer whose flags are malformed is treated as one without flags, and nothing that was read before
the fault is kept. It would be otherwise if a fault were handed up, or if a flag changed what is
read of a node besides what it asks for.

Lowering knows of flags through `override?` alone. `lower_readingFlags` says so of whole designs:
however it is decided whose flags are read, the same overrides make the same widgets.
`lower_containsFlags` follows. The flags of the layers that are `isSilent`, all of them or some, may
as well be ignored.
-/

namespace DesignCompiler

/-- **A layer whose flags ask for nothing:** it has none with a meaning, or they are malformed. -/
def Layer.isSilent (l : Layer) : Bool :=
  match l.override? with
  | .ok (some _) => false
  | .ok none | .error _ => true

namespace LoweringOptions

/-- The options with another rule for whose flags are read. -/
def readingFlags (o : LoweringOptions) (skip : Bool) (ignores : Option (Node → Bool)) :
    LoweringOptions :=
  { o with skipFlags := skip, ignoresFlags := ignores }

/-- The options that ignore the flags of some further nodes. -/
def ignoringFlagsOf (o : LoweringOptions) (further : Node → Bool) : LoweringOptions :=
  o.readingFlags o.skipFlags (some fun n => o.ignoresFlags.any (· n) || further n)

/-- The options that read no flags at all. -/
def withoutFlags (o : LoweringOptions) : LoweringOptions := o.readingFlags true o.ignoresFlags

variable {o : LoweringOptions} {skip : Bool} {ignores : Option (Node → Bool)}

/-! ### One node -/

/-- The flags of further nodes are not read either. -/
theorem readsFlags_ignoringFlagsOf (further : Node → Bool) (n : Node) :
    (o.ignoringFlagsOf further).readsFlags n = (o.readsFlags n && !further n) := by
  unfold readsFlags ignoringFlagsOf readingFlags
  simp [Bool.and_assoc]

/-- A silent layer asks for nothing, read or not. -/
theorem override?_of_silent {n : Node} (h : n.layer.isSilent = true) : o.override? n = none := by
  unfold Layer.isSilent at h
  unfold override?
  cases hflags : n.layer.override? with
  -- A fault is swallowed here, with all that was read in front of it.
  | error e => simp
  | ok found =>
    cases found with
    | none => simp
    | some f => simp [hflags] at h

/-- Ignoring the flags of further nodes takes their overrides away, and no others. -/
theorem override?_ignoringFlagsOf (further : Node → Bool) (n : Node) :
    (o.ignoringFlagsOf further).override? n = if further n then none else o.override? n := by
  unfold override?
  rw [readsFlags_ignoringFlagsOf]
  cases further n <;> simp

/-- Which flags are read matters to a node through what its own flags ask for. -/
theorem treatment_readingFlags {n : Node}
    (h : (o.readingFlags skip ignores).override? n = o.override? n) :
    (o.readingFlags skip ignores).treatment n = o.treatment n := by
  unfold treatment
  simp only [h]
  rfl

/-! ### Designs -/

/-- **Reading other flags changes nothing** where they ask for the same at every node. -/
theorem lowerNode_readingFlags (n : Node) :
    ∀ depth : Nat,
      (∀ m ∈ n.preorder, (o.readingFlags skip ignores).override? m = o.override? m) →
      (o.readingFlags skip ignores).lowerNode depth n = o.lowerNode depth n := by
  induction n using Node.induction with
  | node layer children ih =>
    intro depth h
    -- Flags are read for the treatment of the node, and neither by `finish` nor by
    -- `containerWidget`, so what is left are the children.
    have hnode := treatment_readingFlags (h _ (Node.mem_preorder_self _))
    have hchildren : (o.readingFlags skip ignores).lowerChildren (depth + 1) children =
        o.lowerChildren (depth + 1) children :=
      lowerChildren_congr fun c hc =>
        ih c hc (depth + 1) fun m hm => h m (Node.mem_preorder_of_child hc hm)
    rw [lowerNode, lowerNode, hnode, hchildren]
    rfl

/-- **Flags count through the overrides of nodes,** and through nothing else. -/
theorem lower_readingFlags {root : Node}
    (h : ∀ m ∈ root.preorder, (o.readingFlags skip ignores).override? m = o.override? m) :
    (o.readingFlags skip ignores).lower root = o.lower root := by
  unfold lower
  rw [lowerNode_readingFlags root 0 h]

/-! ### The law -/

/-- **What it means that the flags of a design are contained,** each in its own node. -/
structure ContainsFlags (o : LoweringOptions) (root : Node) : Prop where
  /-- Ignoring the flags of every layer whose flags ask for nothing changes nothing. -/
  ignoringSilent : (o.ignoringFlagsOf (·.layer.isSilent)).lower root = o.lower root
  /-- So it is for any of these layers, such as a single one with a malformed flag. -/
  ignoringSome : ∀ further : Node → Bool, (∀ n, further n = true → n.layer.isSilent = true) →
    (o.ignoringFlagsOf further).lower root = o.lower root
  /-- Such a layer is treated as if no flags were read, with no trace of those before a fault. -/
  silent : ∀ n : Node, n.layer.isSilent = true → o.treatment n = o.withoutFlags.treatment n
  /-- Whether the flags of some nodes are read is nothing to the treatment of any other node. -/
  others : ∀ (further : Node → Bool) (n : Node), further n = false →
    (o.ignoringFlagsOf further).treatment n = o.treatment n

/-- **A failing flag is contained in its node.** -/
theorem lower_containsFlags (o : LoweringOptions) (root : Node) : o.ContainsFlags root := by
  have hsome : ∀ further : Node → Bool, (∀ n, further n = true → n.layer.isSilent = true) →
      (o.ignoringFlagsOf further).lower root = o.lower root := by
    intro further hsilent
    -- Where flags are ignored there is no override afterwards, and there was none before.
    refine lower_readingFlags fun n _ => ?_
    rw [← ignoringFlagsOf, override?_ignoringFlagsOf]
    cases hn : further n with
    | false => rfl
    | true => exact (override?_of_silent (hsilent n hn)).symm
  refine ⟨hsome _ fun _ h => h, hsome, fun n hn => ?_, fun further n hn => ?_⟩
  · refine (treatment_readingFlags ?_).symm
    rw [override?_of_silent hn, override?_of_silent hn]
  · refine treatment_readingFlags ?_
    rw [← ignoringFlagsOf, override?_ignoringFlagsOf, hn]
    rfl

end LoweringOptions

end DesignCompiler
