import DesignCompiler.Proofs.Design.UnknownFlags
/-!
# The order of flags

Flags are read one token after the other up to the first fault, and what they ask for is looked up
in the list of all of them, kind by kind. So the answer might depend on where in a name a flag
stands. Where a name gives each flag once (`EachOnce`) it does not: words, unknown flags and the
order of the tokens make no difference (`Layer.override?_of_perm`).

The reading of tokens splits into two lists that do not know of each other, the faults and the flags
that are well formed (`readTokens_eq`). With one fault at most it does not matter that the first one
is reported; with one flag of a kind at most it does not matter whether the first or the last one
counts. `Gated` says what the answer is, without a word about an order.
-/

namespace DesignCompiler

/-! ### The flags in a name -/

/-- Whether a token is a flag with a key that has a meaning. -/
def isKnownFlag (token : List Char) : Bool :=
  isFlagToken token && flagKeys.contains (splitFlag token).1

/-- **The flag tokens of a name,** without its words and its unknown flags. -/
def flagTokens (name : String) : List (List Char) := (tokens name.toList).filter isKnownFlag

/-- A token is passed over exactly if it is no flag with a meaning. -/
theorem readToken_eq_none_iff {token : List Char} :
    readToken token = .ok none ↔ isKnownFlag token = false := by
  rw [isKnownFlag, Bool.and_eq_false_iff, List.contains_eq_mem, decide_eq_false_iff_not]
  cases hflag : isFlagToken token with
  | false => simp [readToken, hflag]
  | true =>
    rw [readToken, if_pos hflag]
    change readFlag (splitFlag token).1 (splitFlag token).2 = .ok none ↔ _
    rw [readFlag_eq_none_iff]
    simp

/-- Nothing but the flag tokens of a name is read. -/
theorem parseFlags_eq_flagTokens (name : String) :
    parseFlags name = readTokens (flagTokens name) :=
  (readTokens_filter (fun _ => readToken_eq_none_iff.mpr) _).symm

/-- The flags that tokens stand for, each by itself. -/
def said (ts : List (List Char)) : List Flag := ts.filterMap fun t => (readToken t).toOption.join

/-- What is wrong with tokens, each by itself. -/
def faults (ts : List (List Char)) : List FlagError :=
  ts.filterMap fun t =>
    match readToken t with
    | .ok _ => none
    | .error fault => some fault

/-- **Reading comes to the first fault,** and without one to all the flags. -/
theorem readTokens_eq (ts : List (List Char)) :
    readTokens ts = (faults ts).head?.elim (.ok (said ts)) .error := by
  induction ts with
  | nil => rfl
  | cons token rest ih =>
    -- Reading stops at the first fault, so later ones count only while no token has failed.
    cases hread : readToken token with
    | error fault => simp [readTokens, faults, hread, bind, Except.bind]
    | ok flag =>
      have hfaults : faults (token :: rest) = faults rest := by simp [faults, hread]
      have hsaid : said (token :: rest) = flag.toList ++ said rest := by
        cases flag <;> simp [said, hread, Except.toOption]
      rw [readTokens, hread, ih, hfaults, hsaid]
      cases (faults rest).head? <;> rfl

/-! ### Flags given once -/

/-- The key of a flag token. -/
def tokenKey (token : List Char) : String := (splitFlag token).1

/-- **Tokens that give each flag once:** one text tag at most, one least width, one greatest width
and one icon, and one token at most is at fault. Layers may be ignored or made pictures of twice. -/
structure EachOnce (ts : List (List Char)) : Prop where
  tag : ts.countP (fun t => (textTag? (tokenKey t)).isSome) ≤ 1
  least : ts.countP (tokenKey · == "min-width") ≤ 1
  greatest : ts.countP (tokenKey · == "max-width") ≤ 1
  icon : ts.countP (tokenKey · == "as-icon") ≤ 1
  fault : (faults ts).length ≤ 1

/-- The key that a flag is read from. -/
def Flag.HasKey (key : String) : Flag → Prop
  | ignore => key = "ignore"
  | artwork => key = "artwork" ∨ key = "as-image"
  | asText tag => textTag? key = some tag
  | maxWidth _ => key = "max-width"
  | minWidth _ => key = "min-width"
  | asIcon _ => key = "as-icon"

/-- A flag comes from its own key. -/
theorem hasKey_of_readFlag {key : String} {value : Option String} {flag : Flag}
    (h : readFlag key value = .ok (some flag)) : flag.HasKey key := by
  have hwidth : ∀ {make : Float → Flag}, (readWidth key value).map (some ∘ make) = .ok (some flag) →
      ∃ width, make width = flag := by
    intro make hmake
    cases hread : readWidth key value with
    | error fault => simp [hread, Except.map] at hmake
    | ok width => exact ⟨width, by simpa [hread, Except.map] using hmake⟩
  unfold readFlag at h
  -- One question after the other, in the order in which they are asked.
  split at h
  · next hkey => cases h; exact beq_iff_eq.mp hkey
  split at h
  · next hkey => cases h; simpa [Flag.HasKey] using hkey
  split at h
  · next hkey => obtain ⟨width, rfl⟩ := hwidth h; exact beq_iff_eq.mp hkey
  split at h
  · next hkey => obtain ⟨width, rfl⟩ := hwidth h; exact beq_iff_eq.mp hkey
  split at h
  · next hkey =>
    cases value with
    | none => cases h
    | some glyph =>
      simp only at h
      split at h <;> cases h
      exact beq_iff_eq.mp hkey
  · obtain ⟨tag, htag, rfl⟩ := Option.map_eq_some_iff.mp (Except.ok.inj h)
    exact htag

/-- A flag that is read has the key of its token. -/
theorem hasKey_of_readToken {token : List Char} {flag : Flag}
    (h : readToken token = .ok (some flag)) : flag.HasKey (tokenKey token) := by
  unfold readToken at h
  split at h
  · exact hasKey_of_readFlag h
  · cases h

/-- A flag that is said is read from a token. -/
theorem mem_said_iff {ts : List (List Char)} {flag : Flag} :
    flag ∈ said ts ↔ ∃ t ∈ ts, readToken t = .ok (some flag) := by
  rw [said, List.mem_filterMap]
  refine exists_congr fun t => and_congr_right fun _ => ?_
  cases readToken t <;> simp [Except.toOption]

/-- The faults of some tokens are those of each of them. -/
theorem mem_faults_iff {ts : List (List Char)} {fault : FlagError} :
    fault ∈ faults ts ↔ ∃ t ∈ ts, readToken t = .error fault := by
  rw [faults, List.mem_filterMap]
  refine exists_congr fun t => and_congr_right fun _ => ?_
  cases readToken t <;> simp

/-- Answers that only flags with certain keys have are no more than the tokens with such a key. -/
theorem length_filterMap_said {α : Type} {ask : Flag → Option α} {p : List Char → Bool}
    (h : ∀ (flag : Flag) t, flag.HasKey (tokenKey t) → (ask flag).isSome = true → p t = true)
    (ts : List (List Char)) : ((said ts).filterMap ask).length ≤ ts.countP p := by
  rw [said, List.filterMap_filterMap, List.length_filterMap_eq_countP]
  refine List.countP_mono_left fun t _ ht => ?_
  cases hread : readToken t with
  | error fault => simp [hread, Except.toOption] at ht
  | ok read =>
    cases read with
    | none => simp [hread, Except.toOption] at ht
    | some flag =>
      exact h flag t (hasKey_of_readToken hread) (by simpa [hread, Except.toOption] using ht)

/-- **Flags of which none comes twice:** each question about the flags has one answer at most. -/
structure Unrepeated (flags : List Flag) : Prop where
  tag : (flags.filterMap (·.tag?)).length ≤ 1
  least : (flags.filterMap (·.minWidth?)).length ≤ 1
  greatest : (flags.filterMap (·.maxWidth?)).length ≤ 1
  glyph : (flags.filterMap (·.glyph?)).length ≤ 1

/-- **Tokens that say nothing twice** are read as flags that say nothing twice. -/
theorem EachOnce.unrepeated {ts : List (List Char)} (h : EachOnce ts) : Unrepeated (said ts) where
  -- Each flag comes from a token with its key, so there are no more flags of a kind than tokens
  -- with that key.
  tag := by
    refine Nat.le_trans (length_filterMap_said (fun flag t hkey hask => ?_) ts) h.tag
    cases flag with
    | asText tag => exact Option.isSome_iff_exists.mpr ⟨tag, hkey⟩
    | _ => cases hask
  least := by
    refine Nat.le_trans (length_filterMap_said (fun flag t hkey hask => ?_) ts) h.least
    cases flag with
    | minWidth width => exact beq_iff_eq.mpr hkey
    | _ => cases hask
  greatest := by
    refine Nat.le_trans (length_filterMap_said (fun flag t hkey hask => ?_) ts) h.greatest
    cases flag with
    | maxWidth width => exact beq_iff_eq.mpr hkey
    | _ => cases hask
  glyph := by
    refine Nat.le_trans (length_filterMap_said (fun flag t hkey hask => ?_) ts) h.icon
    cases flag with
    | asIcon glyph => exact beq_iff_eq.mpr hkey
    | _ => cases hask

/-! ### Another order -/

/-- A list of one entry at most has only one order. -/
theorem eq_of_perm_of_length_le {α : Type} {xs ys : List α} (h : xs.Perm ys)
    (hshort : xs.length ≤ 1) : ys = xs := by
  match xs, hshort with
  | [], _ => exact List.perm_nil.mp h.symm
  | [_], _ => exact List.perm_singleton.mp h.symm

/-- **What flags ask for does not depend on their order,** if none comes twice. -/
theorem resolveFlags_of_perm {flags flags' : List Flag} (h : flags.Perm flags')
    (honce : Unrepeated flags) (kind : Option NodeKind) :
    resolveFlags kind flags' = resolveFlags kind flags := by
  have hglyph := eq_of_perm_of_length_le (h.filterMap (·.glyph?)) honce.glyph
  have htag := eq_of_perm_of_length_le (h.filterMap (·.tag?)) honce.tag
  have hleast := eq_of_perm_of_length_le (h.filterMap (·.minWidth?)) honce.least
  have hgreatest := eq_of_perm_of_length_le (h.filterMap (·.maxWidth?)) honce.greatest
  -- The first answer is the head of all answers, and the last one is their end.
  simp only [resolveFlags, lastFlag?, ← List.head?_filterMap, h.symm.isEmpty_eq, h.symm.any_eq,
    hglyph, htag, hleast, hgreatest]

/-- Tokens in another order have the same fault, or the same flags in another order. -/
theorem faults_of_perm {ts ts' : List (List Char)} (h : ts.Perm ts')
    (honce : (faults ts).length ≤ 1) : faults ts' = faults ts ∧ (said ts).Perm (said ts') :=
  ⟨eq_of_perm_of_length_le (h.filterMap _) honce, h.filterMap _⟩

/-! ### What the flags come to -/

/-- **Tokens that only change the widget,** if they ask for anything: none is at fault, and none
asks for something to be put in its place. -/
structure OnlyChanges (ts : List (List Char)) : Prop where
  noFault : faults ts = []
  noIgnore : .ignore ∉ said ts
  noArtwork : .artwork ∉ said ts
  noIcon : ∀ glyph, .asIcon glyph ∉ said ts

/-- **What the flag tokens of a layer come to,** by its type and what the tokens are, whatever their
order is. -/
inductive Gated (kind : Option NodeKind) (ts : List (List Char)) :
    Except FlagError (Option Override) → Prop
  | malformed {fault : FlagError} : fault ∈ faults ts → Gated kind ts (.error fault)
  | ignore : faults ts = [] → .ignore ∈ said ts → Gated kind ts (.ok (some .ignore))
  | artwork : faults ts = [] → .ignore ∉ said ts → .artwork ∈ said ts →
      Gated kind ts (.ok (some .artwork))
  | icon {glyph : String} : faults ts = [] → .ignore ∉ said ts → .artwork ∉ said ts →
      .asIcon glyph ∈ said ts → Gated kind ts (.ok (some (.icon glyph)))
  | unflagged : ts = [] → Gated kind ts (.ok none)
  | notApplicable {tag : TextTag} : OnlyChanges ts → .asText tag ∈ said ts →
      kind.any (·.isText) = false →
      Gated kind ts
        (.error (.notApplicable ("as-" ++ tag.html) ((kind.map (·.tag)).getD "untyped")))
  | modify {tag : Option TextTag} {least greatest : Option Float} : OnlyChanges ts → ts ≠ [] →
      (tag.isSome = true → kind.any (·.isText) = true) →
      (said ts).filterMap (·.tag?) = tag.toList →
      (said ts).filterMap (·.minWidth?) = least.toList →
      (said ts).filterMap (·.maxWidth?) = greatest.toList →
      Gated kind ts (.ok (some (.modify tag least greatest)))

namespace Flag

theorem isIgnore_iff {flag : Flag} : flag.isIgnore = true ↔ flag = .ignore := by
  cases flag <;> simp [isIgnore]

theorem isArtwork_iff {flag : Flag} : flag.isArtwork = true ↔ flag = .artwork := by
  cases flag <;> simp [isArtwork]

theorem glyph?_eq_some_iff {flag : Flag} {glyph : String} :
    flag.glyph? = some glyph ↔ flag = .asIcon glyph := by
  cases flag <;> simp [glyph?]

theorem tag?_eq_some_iff {flag : Flag} {tag : TextTag} :
    flag.tag? = some tag ↔ flag = .asText tag := by
  cases flag <;> simp [tag?]

end Flag

/-- An answer that is given once at most is the last one. -/
theorem filterMap_eq_toList_lastFlag? {α : Type} {ask : Flag → Option α} {flags : List Flag}
    (h : (flags.filterMap ask).length ≤ 1) :
    flags.filterMap ask = (lastFlag? ask flags).toList := by
  rw [lastFlag?]
  match flags.filterMap ask, h with
  | [], _ => rfl
  | [_], _ => rfl

/-- Flag tokens without a fault say something, if there are any. -/
theorem eq_nil_of_said {ts : List (List Char)} (hknown : ∀ t ∈ ts, isKnownFlag t = true)
    (hfaults : faults ts = []) (hsaid : said ts = []) : ts = [] := by
  refine List.eq_nil_iff_forall_not_mem.mpr fun t ht => ?_
  -- A known flag is a fault or says something, and neither is there.
  cases hread : readToken t with
  | error fault =>
    have hmem := mem_faults_iff.mpr ⟨t, ht, hread⟩
    simp [hfaults] at hmem
  | ok read =>
    cases read with
    | none => exact absurd (hknown t ht) (by simp [readToken_eq_none_iff.mp hread])
    | some flag =>
      have hmem := mem_said_iff.mpr ⟨t, ht, hread⟩
      simp [hsaid] at hmem

/-- **What is resolved is what the tokens come to.** -/
theorem gated_resolveFlags (kind : Option NodeKind) {ts : List (List Char)}
    (hknown : ∀ t ∈ ts, isKnownFlag t = true) (honce : Unrepeated (said ts))
    (hfaults : faults ts = []) : Gated kind ts (resolveFlags kind (said ts)) := by
  unfold resolveFlags
  split
  · next hempty => exact .unflagged (eq_nil_of_said hknown hfaults (List.isEmpty_iff.mp hempty))
  next hempty =>
  have hne : ts ≠ [] := fun hnil => hempty (by rw [hnil]; rfl)
  split
  · next hignore =>
    obtain ⟨flag, hflag, his⟩ := List.any_eq_true.mp hignore
    exact .ignore hfaults (Flag.isIgnore_iff.mp his ▸ hflag)
  next hignore =>
  have hnoIgnore : .ignore ∉ said ts := fun hmem => hignore (List.any_eq_true.mpr ⟨_, hmem, rfl⟩)
  split
  · next hartwork =>
    obtain ⟨flag, hflag, his⟩ := List.any_eq_true.mp hartwork
    exact .artwork hfaults hnoIgnore (Flag.isArtwork_iff.mp his ▸ hflag)
  next hartwork =>
  have hnoArtwork : .artwork ∉ said ts :=
    fun hmem => hartwork (List.any_eq_true.mpr ⟨_, hmem, rfl⟩)
  split
  · next glyph hglyph =>
    obtain ⟨flag, hflag, his⟩ := List.exists_of_findSome?_eq_some hglyph
    exact .icon hfaults hnoIgnore hnoArtwork (Flag.glyph?_eq_some_iff.mp his ▸ hflag)
  next hglyph =>
  have hchanges : OnlyChanges ts := ⟨hfaults, hnoIgnore, hnoArtwork, fun glyph hmem =>
    absurd (List.findSome?_eq_none_iff.mp hglyph _ hmem) (by simp [Flag.glyph?])⟩
  split
  · next tag htag hkind =>
    obtain ⟨flag, hflag, his⟩ := List.exists_of_findSome?_eq_some htag
    exact .notApplicable hchanges (Flag.tag?_eq_some_iff.mp his ▸ hflag) hkind
  · next hallowed =>
    refine .modify hchanges hne (fun htag => ?_) (filterMap_eq_toList_lastFlag? honce.tag)
      (filterMap_eq_toList_lastFlag? honce.least) (filterMap_eq_toList_lastFlag? honce.greatest)
    -- A tag is among the flags, so the layer is a text, or the flag would not be allowed.
    obtain ⟨tag, hlast⟩ := Option.isSome_iff_exists.mp htag
    obtain ⟨flag, hflag, his⟩ := List.mem_filterMap.mp (List.mem_of_getLast? hlast)
    cases hfirst : (said ts).findSome? (·.tag?) with
    | none => exact absurd (List.findSome?_eq_none_iff.mp hfirst flag hflag) (by simp [his])
    | some first => exact eq_true_of_ne_false fun hkind => hallowed first hfirst hkind

/-- **The flags of a layer do not depend on how its name is written.** For two names with the same
flag tokens in any order, and any words and unknown flags between them, the answer is the same if
each flag is given once, and it is what the tokens come to. -/
theorem Layer.override?_of_perm {l l' : Layer} (hkind : l'.kind = l.kind)
    (hflags : (flagTokens l.name).Perm (flagTokens l'.name))
    (honce : EachOnce (flagTokens l.name)) :
    l'.override? = l.override? ∧ Gated l.kind (flagTokens l.name) l.override? := by
  have hknown : ∀ t ∈ flagTokens l.name, isKnownFlag t = true :=
    fun t ht => (List.mem_filter.mp ht).2
  obtain ⟨hfaults, hsaid⟩ := faults_of_perm hflags honce.fault
  rw [Layer.override?, Layer.override?, parseFlags_eq_flagTokens, parseFlags_eq_flagTokens,
    readTokens_eq, readTokens_eq, hfaults, hkind]
  -- A fault is the answer in any order; without one, the flags are resolved by what is among them.
  cases hfault : faults (flagTokens l.name) with
  | nil =>
    exact ⟨resolveFlags_of_perm hsaid honce.unrepeated l.kind,
      gated_resolveFlags l.kind hknown honce.unrepeated hfault⟩
  | cons fault rest => exact ⟨rfl, .malformed (hfault ▸ List.mem_cons_self)⟩

/-- A heading under a name. -/
def headingLayer (name : String) : Layer :=
  { id := "1:1", name := name, kind := some (.text "Hello" {}) }

/-- The law at a heading, with its flags in another order and an unknown one between them. -/
theorem override?_of_perm_heading :
    (headingLayer "--max-width=640 wide --pin title --as-h1").override? =
        (headingLayer "Title --as-h1 --max-width=640").override? ∧
      Gated (some (.text "Hello" {})) ["--as-h1".toList, "--max-width=640".toList]
        (headingLayer "Title --as-h1 --max-width=640").override? := by
  have htokens : flagTokens "Title --as-h1 --max-width=640" =
      ["--as-h1".toList, "--max-width=640".toList] := by decide
  have hflags : (flagTokens "Title --as-h1 --max-width=640").Perm
      (flagTokens "--max-width=640 wide --pin title --as-h1") := by decide
  -- The tag is well formed, so there is one fault at most, whatever the width is.
  have hfault : (faults (flagTokens "Title --as-h1 --max-width=640")).length ≤ 1 := by
    have htag : readToken "--as-h1".toList = .ok (some (.asText .h1)) := by rfl
    rw [htokens, faults, List.filterMap_cons, htag]
    exact List.length_filterMap_le _ _
  have honce : EachOnce (flagTokens "Title --as-h1 --max-width=640") :=
    ⟨by decide, by decide, by decide, by decide, hfault⟩
  have hkind : (headingLayer "--max-width=640 wide --pin title --as-h1").kind =
      (headingLayer "Title --as-h1 --max-width=640").kind := rfl
  have hgate := Layer.override?_of_perm hkind hflags honce
  exact ⟨hgate.1, htokens ▸ hgate.2⟩

end DesignCompiler
