import ReleaseFlags.Proofs.Calls
import ReleaseFlags.Proofs.Lines
import ReleaseFlags.Proofs.Registry.Aliases
import ReleaseFlags.Report.InheritanceGraph

/-!
# Paths in the inheritance graph

The graph of a registry is a text of lines, and each line between the header and the end is drawn
for a config or an alias (`render_eq_unlines`).  A config is connected to what a name that it
inherits leads to, if each alias on the way is inherited by some config, for then it has an edge to
its target (`transGen_draws`).  This holds of a single alias, but not of every chain: an alias in
the middle of a chain that nobody inherits is a dead end (`chain_not_drawn`).
-/

namespace ReleaseFlags

namespace InheritanceGraph

open Registry Relation

variable {registry : Registry} {config parent : ReleaseConfig}
  {text line name source target : String}

/-! ### What a text draws -/

/-- One of the lines of the text is a solid or dashed edge from the source to the target. -/
def Draws (text source target : String) : Prop :=
  ∃ before line after, text = unlines (before ++ line :: after) ∧
    (line = edge source target ∨ line = aliasLine source target)

/-- What is drawn for the configs and the aliases that are inherited. -/
def drawn (registry : Registry) : List String :=
  registry.configs.values.flatMap configLines ++ aliasLines registry

/-- The graph is made of its lines. -/
lemma render_eq_unlines (registry : Registry) : render registry =
    unlines (header ++ (NameSet.ofNames (drawn registry)).names ++ ["\x7d"]) :=
  intercalate_lineFeed (by simp)

lemma mem_lines : line ∈ header ++ (NameSet.ofNames (drawn registry)).names ++ ["\x7d"] ↔
    line ∈ header ∨ line ∈ drawn registry ∨ line = "\x7d" := by
  have hdrawn : line ∈ (NameSet.ofNames (drawn registry)).names ↔ line ∈ drawn registry := by
    rw [NameSet.ofNames, NameSet.mem_addAll]
    exact or_iff_left (List.not_mem_nil)
  rw [List.mem_append, List.mem_append, hdrawn, List.mem_singleton, or_assoc]

lemma draws_of_mem (hmem : line ∈ drawn registry)
    (hline : line = edge source target ∨ line = aliasLine source target) :
    Draws (render registry) source target := by
  obtain ⟨before, after, hlines⟩ := List.mem_iff_append.mp (mem_lines.mpr (.inr (.inl hmem)))
  exact ⟨before, line, after, by rw [render_eq_unlines, hlines], hline⟩

/-- Some config that is shown inherits the name, and the name is shown. -/
def Inherited (registry : Registry) (name : String) : Prop :=
  ∃ config ∈ registry.configs.values, name ∈ parents config

lemma mem_parents : name ∈ parents config ↔
    config.name ≠ rootName ∧ name ∈ config.inheritNames ∧ name ≠ rootName := by
  unfold parents
  split <;> simp [*]

/-- A config has an edge to each name that it inherits. -/
lemma draws_edge (h : registry.Has config) (hname : name ∈ parents config) :
    Draws (render registry) config.name name := by
  refine draws_of_mem (List.mem_append_left _ (List.mem_flatMap.mpr ⟨config, ?_, ?_⟩)) (.inl rfl)
  · exact NameMap.mem_values.mpr ⟨config.name, h⟩
  · rw [configLines, if_neg (mem_parents.mp hname).1]
    exact List.mem_append_left _ (List.mem_append_left _ (List.mem_map_of_mem hname))

lemma mem_aliasLines : line ∈ aliasLines registry ↔ ∃ name target,
    registry.aliases.get? name = some target ∧ Inherited registry name ∧
      line = aliasLine name target := by
  simp only [aliasLines, List.mem_map, List.mem_filter, NameMap.mem_entries, Prod.exists,
    decide_eq_true_eq, List.mem_flatMap, Inherited, and_assoc, eq_comm (a := line)]

/-- An alias that is inherited has an edge to its target. -/
lemma draws_alias (hinherited : Inherited registry name)
    (htarget : registry.aliases.get? name = some target) :
    Draws (render registry) name target :=
  draws_of_mem
    (List.mem_append_right _ (mem_aliasLines.mpr ⟨name, target, htarget, hinherited, rfl⟩))
    (.inr rfl)

/-- **Paths in the inheritance graph.**  A name that a config inherits leads to another config along
a way of aliases.  The graph has a path from the one config to the other, if each alias on this way
is the inherited name itself, or is inherited as well. -/
theorem transGen_draws (h : registry.Reached) (hc : registry.Has config)
    (hconfig : config.name ≠ rootName) (hname : name ∈ config.inheritNames)
    (hroot : name ≠ rootName) (hparent : registry.configStrict name = .ok parent) :
    ∃ way, aliasChain registry.aliases name = .ok (parent.name, way) ∧
      ((∀ other ∈ way, other = name ∨ other = parent.name ∨ Inherited registry other) →
        TransGen (Draws (render registry)) config.name parent.name) := by
  have hshown : name ∈ parents config := mem_parents.mpr ⟨hconfig, hname, hroot⟩
  obtain ⟨way, hchain⟩ : ∃ way, aliasChain registry.aliases name = .ok (parent.name, way) := by
    unfold configStrict lookup at hparent
    split at hparent
    · cases hparent
    · next last way hchain =>
      split at hparent
      · next found hfound =>
        cases hparent
        rw [h.coherent.named last parent hfound]
        exact ⟨way, hchain⟩
      · cases hparent
  refine ⟨way, hchain, fun hway => ?_⟩
  refine TransGen.head' (draws_edge hc hshown) (reflTransGen_of_aliasChain hchain ?_)
  intro other hother target htarget
  rcases hway other hother with rfl | rfl | hinherited
  · exact draws_alias ⟨config, NameMap.mem_values.mpr ⟨config.name, hc⟩, hshown⟩ htarget
  · -- a name at the end of the way is no alias
    rw [(followAliases_ok hchain).1] at htarget
    cases htarget
  · exact draws_alias hinherited htarget

/-! ### A dead end -/

/-- What is drawn for a config: an edge to each parent and prior stage, and its node. -/
lemma mem_configLines (h : line ∈ configLines config) :
    (∃ name ∈ parents config, line = edge config.name name) ∨
      (∃ stage ∈ config.priorStages.names, line =
        edge config.name stage ++ " [ style=dotted, color=\"#ffad99\" ]") ∨
      line = node config.name ++ " [ label=\"" ++ label config ++ "\", fillcolor=\"" ++
        fillColour config ++ "\" ]" := by
  unfold configLines at h
  split at h
  · cases h
  · simp only [List.mem_append, List.mem_map, List.mem_singleton, or_assoc] at h
    rcases h with ⟨name, hname, rfl⟩ | ⟨stage, hstage, rfl⟩ | rfl
    · exact .inl ⟨name, hname, rfl⟩
    · exact .inr (.inl ⟨stage, hstage, rfl⟩)
    · exact .inr (.inr rfl)

lemma toList_edge (source target : String) : (edge source target).toList =
    '"' :: source.toList ++ '"' :: " -> ".toList ++ '"' :: target.toList ++ ['"'] := by
  simp [edge, node]

lemma toList_aliasLine (name target : String) : (aliasLine name target).toList =
    (edge name target).toList ++ " [ style=dashed ]".toList := by
  rw [aliasLine, String.toList_append]

/-- The end of an edge to the target. -/
def arrowTo (target : String) : List Char := " -> ".toList ++ '"' :: target.toList ++ ['"']

/-- What an edge leads to stands behind its arrow. -/
lemma infix_of_draws (h : Draws text source target) : arrowTo target <:+: text.toList := by
  obtain ⟨before, line, after, rfl, hline⟩ := h
  have hedge : arrowTo target <:+: (edge source target).toList := by
    refine ⟨'"' :: source.toList ++ ['"'], [], ?_⟩
    simp [toList_edge, arrowTo]
  have hinfix : arrowTo target <:+: line.toList := by
    rcases hline with rfl | rfl
    · exact hedge
    · rw [toList_aliasLine]
      exact hedge.trans (List.infix_append' [] _ _)
  refine hinfix.trans ⟨(unlines before).toList, '\n' :: (unlines after).toList, ?_⟩
  simp

end InheritanceGraph

/-- A config directory with a chain of two aliases; nobody inherits the second one. -/
def Source.chained : Source where
  tree := {
    nodes := ⟨[
      ("/d", .directory),
      ("/d/release_config_map.toml",
        .file (some ("aliases=[\x7bname='next',target='staging'\x7d," ++
          "\x7bname='stable',target='c'\x7d,\x7bname='staging',target='a'\x7d]"))),
      ("/d/release_configs", .directory),
      ("/d/release_configs/a.toml", .file (some "name='a'")),
      ("/d/release_configs/b.toml", .file (some "name='b'\ninherits=['stable']")),
      ("/d/release_configs/c.toml", .file (some "name='c'\ninherits=['next']"))], by
        unfold Increasing
        decide +kernel⟩
    workingDirectory := "" }
  root := ⟨""⟩

namespace InheritanceGraph

open Registry Relation

variable {registry : Registry} {config : ReleaseConfig} {line : String}

/-- What the graph shows of a config: its name, parents, prior stages and aliases. -/
def shownOf (config : ReleaseConfig) : String × List String × List String × List String :=
  (config.name, config.inheritNames, config.priorStages.names, config.otherNames)

/-- The aliases of the sample, and what is shown of its configs. -/
def isChained (registry : Registry) : Bool :=
  registry.aliases.entries = [("next", "staging"), ("stable", "c"), ("staging", "a")] &&
    registry.configs.values.map shownOf = [("a", [], [], ["next", "staging"]),
      ("b", ["stable"], [], []), ("c", ["next"], [], ["stable"])]

/-- The two names lead to these configs. -/
def leads (registry : Registry) : Bool :=
  (registry.configStrict "next").toOption.any (fun parent => parent.name = "a") &&
    (registry.configStrict "stable").toOption.any (fun parent => parent.name = "c") &&
    (aliasChain registry.aliases "stable").toOption.any fun found => found = ("c", ["stable", "c"])

/-- The sample can be scanned. -/
lemma exists_chained : ∃ scanned, Source.chained.scan ["d"] = .ok scanned ∧
    isChained scanned = true ∧ leads scanned = true := by
  have hchained : (Source.chained.scan ["d"]).toOption.any
      (fun scanned => isChained scanned && leads scanned) = true := by
    decide +kernel
  obtain ⟨scanned, hscan, htest⟩ := exists_of_toOption hchained
  exact ⟨scanned, hscan, Bool.and_eq_true_iff.mp htest⟩

/-- Only edges have arrows. -/
lemma arrow_notMem_node {config : ReleaseConfig} (hname : '>' ∉ config.name.toList)
    (hothers : '>' ∉ (" ".intercalate config.otherNames).toList) :
    '>' ∉ (node config.name ++ " [ label=\"" ++ label config ++ "\", fillcolor=\"" ++
      fillColour config ++ "\" ]").toList := by
  have hcolour : '>' ∉ (fillColour config).toList := by
    unfold fillColour
    split
    · decide
    · decide
    · split <;> decide
  have hlabel : '>' ∉ (label config).toList := by
    unfold label
    split
    · exact hname
    · rw [String.toList_append, String.toList_append]
      simp [hname, hothers, -String.toList_intercalate]
  simp [node, hname, hlabel, hcolour]

/-- What is shown of a config of the sample. -/
lemma shownOf_of_isChained (h : isChained registry = true)
    (hmem : config ∈ registry.configs.values) :
    shownOf config = ("a", [], [], ["next", "staging"]) ∨
      shownOf config = ("b", ["stable"], [], []) ∨
      shownOf config = ("c", ["next"], [], ["stable"]) := by
  rw [isChained, Bool.and_eq_true, decide_eq_true_eq, decide_eq_true_eq] at h
  have hshown : shownOf config ∈ registry.configs.values.map shownOf := List.mem_map_of_mem hmem
  rw [h.2] at hshown
  simpa using hshown

/-- All that has an arrow and is drawn for a config leads to one of these parents. -/
lemma configLines_of_isChained (h : isChained registry = true)
    (hmem : config ∈ registry.configs.values) (hline : line ∈ configLines config)
    (harrow : '>' ∈ line.toList) : line = edge "b" "stable" ∨ line = edge "c" "next" := by
  have hshown := shownOf_of_isChained h hmem
  simp only [shownOf, Prod.mk.injEq] at hshown
  rcases mem_configLines hline with ⟨name, hname, rfl⟩ | ⟨stage, hstage, -⟩ | rfl
  · obtain ⟨-, hname, -⟩ := mem_parents.mp hname
    rcases hshown with ⟨-, hparents, -⟩ | ⟨hb, hparents, -⟩ | ⟨hc, hparents, -⟩
    · rw [hparents] at hname
      cases hname
    · rw [hparents] at hname
      exact .inl (by rw [hb, List.mem_singleton.mp hname])
    · rw [hparents] at hname
      exact .inr (by rw [hc, List.mem_singleton.mp hname])
  · rcases hshown with ⟨-, -, hstages, -⟩ | ⟨-, -, hstages, -⟩ | ⟨-, -, hstages, -⟩ <;>
      simp [hstages] at hstage
  · refine absurd harrow (arrow_notMem_node ?_ ?_)
    · rcases hshown with ⟨hname, -⟩ | ⟨hname, -⟩ | ⟨hname, -⟩ <;> rw [hname] <;> decide
    · rcases hshown with ⟨-, -, -, hothers⟩ | ⟨-, -, -, hothers⟩ | ⟨-, -, -, hothers⟩ <;>
        rw [hothers] <;> simp

/-- The second alias of the chain is not drawn, since nobody inherits it. -/
lemma aliasLines_of_isChained (h : isChained registry = true) {target : String}
    (htarget : registry.aliases.get? name = some target) (hinherited : Inherited registry name) :
    aliasLine name target = aliasLine "next" "staging" ∨
      aliasLine name target = aliasLine "stable" "c" := by
  obtain ⟨config, hmem, hname⟩ := hinherited
  have hshown := shownOf_of_isChained h hmem
  simp only [shownOf, Prod.mk.injEq] at hshown
  obtain ⟨-, hname, -⟩ := mem_parents.mp hname
  rw [isChained, Bool.and_eq_true, decide_eq_true_eq] at h
  have hentry := NameMap.mem_entries.mpr htarget
  rw [h.1] at hentry
  simp only [List.mem_cons, Prod.mk.injEq, List.not_mem_nil, or_false] at hentry
  rcases hentry with ⟨rfl, rfl⟩ | ⟨rfl, rfl⟩ | ⟨rfl, rfl⟩
  · exact .inl rfl
  · exact .inr rfl
  · rcases hshown with ⟨-, hparents, -⟩ | ⟨-, hparents, -⟩ | ⟨-, hparents, -⟩ <;>
      simp [hparents] at hname

/-- All that has an arrow is drawn for these parents and aliases. -/
lemma arrows_of_isChained (h : isChained registry = true) (hline : line ∈ drawn registry)
    (harrow : '>' ∈ line.toList) : line ∈ [edge "b" "stable", edge "c" "next",
      aliasLine "next" "staging", aliasLine "stable" "c"] := by
  rcases List.mem_append.mp hline with hline | hline
  · obtain ⟨config, hmem, hline⟩ := List.mem_flatMap.mp hline
    rcases configLines_of_isChained h hmem hline harrow with rfl | rfl <;> simp
  · obtain ⟨name, target, htarget, hinherited, rfl⟩ := mem_aliasLines.mp hline
    rcases aliasLines_of_isChained h htarget hinherited with heq | heq <;> simp [heq]

/-- No edge leads to the end of the chain. -/
lemma not_draws_of_isChained (h : isChained registry = true) (source : String) :
    ¬ Draws (render registry) source "a" := by
  intro hdraws
  have hinfix := infix_of_draws hdraws
  rw [render_eq_unlines] at hinfix
  obtain ⟨line, hline, hinfix⟩ := exists_of_infix_unlines (by decide) (by decide) hinfix
  have harrow : '>' ∈ line.toList := hinfix.subset (by decide)
  rcases mem_lines.mp hline with hline | hline | rfl
  · have hheader : ∀ line ∈ header, '>' ∉ line.toList := by decide
    exact hheader line hline harrow
  · have hall : ∀ line ∈ [edge "b" "stable", edge "c" "next", aliasLine "next" "staging",
        aliasLine "stable" "c"], ¬ arrowTo "a" <:+: line.toList := by
      simp only [List.forall_mem_cons, toList_aliasLine, toList_edge]
      exact ⟨by decide +kernel, by decide +kernel, by decide +kernel, by decide +kernel, nofun⟩
    exact hall line (arrows_of_isChained h hline harrow) hinfix
  · exact absurd harrow (by decide)

/-- A config of the sample, by its name. -/
lemma exists_of_isChained (hreached : registry.Reached) (h : isChained registry = true)
    {name : String} {inherits stages others : List String}
    (hmem : (name, inherits, stages, others) ∈ [("a", [], [], ["next", "staging"]),
      ("b", ["stable"], [], []), ("c", ["next"], [], ["stable"])]) :
    ∃ config, registry.Has config ∧ config.name = name ∧ config.inheritNames = inherits := by
  rw [isChained, Bool.and_eq_true, decide_eq_true_eq, decide_eq_true_eq] at h
  rw [← h.2] at hmem
  obtain ⟨config, hconfig, heq⟩ := List.mem_map.mp hmem
  cases heq
  obtain ⟨key, hget⟩ := NameMap.mem_values.mp hconfig
  obtain rfl : config.name = key := hreached.coherent.named key config hget
  exact ⟨config, hget, rfl, rfl⟩

/-- The config `b` is connected to `c`, which it inherits by an alias. -/
theorem transGen_draws_alias : ∃ registry config parent, registry.Reached ∧
    registry.Has config ∧ config.name = "b" ∧ "stable" ∈ config.inheritNames ∧
      registry.configStrict "stable" = .ok parent ∧ parent.name = "c" ∧
      TransGen (Draws (render registry)) config.name parent.name := by
  obtain ⟨scanned, hscan, hchained, hleads⟩ := exists_chained
  have hreached : ({ scanned with allowMissing := false }.setOptions .default).Reached :=
    ⟨Source.chained, ["d"], scanned, false, .default, [], hscan, rfl⟩
  obtain ⟨config, hc, hname, hinherits⟩ :=
    exists_of_isChained hreached hchained (List.mem_cons_of_mem _ List.mem_cons_self)
  simp only [leads, Bool.and_eq_true] at hleads
  obtain ⟨parent, hparent, hparentName⟩ := exists_of_toOption hleads.1.2
  obtain ⟨found, hfound, hway⟩ := exists_of_toOption hleads.2
  obtain rfl := of_decide_eq_true hway
  have hstable : "stable" ∈ config.inheritNames := hinherits ▸ List.mem_cons_self
  have hb : config.name ≠ rootName := by
    rw [hname]
    decide
  obtain ⟨way, hchain, htransGen⟩ :=
    transGen_draws hreached hc hb hstable (by decide) hparent
  obtain ⟨-, rfl⟩ := Prod.mk.inj (Except.ok.inj (hfound.symm.trans hchain))
  have hc' : parent.name = "c" := of_decide_eq_true hparentName
  refine ⟨_, config, parent, hreached, hc, hname, hstable, hparent, hc', htransGen ?_⟩
  simp [hc']

/-- **A dead end.**  The config `c` inherits `next`, which leads to `a` along two aliases, but the
graph has no path from `c` to `a`. -/
theorem chain_not_drawn : ∃ scanned config parent, Source.chained.scan ["d"] = .ok scanned ∧
    let registry := { scanned with allowMissing := false }.setOptions .default
    registry.Has config ∧ config.name = "c" ∧ "next" ∈ config.inheritNames ∧
      registry.configStrict "next" = .ok parent ∧ parent.name = "a" ∧
      ¬ TransGen (Draws (render registry)) config.name parent.name := by
  obtain ⟨scanned, hscan, hchained, hleads⟩ := exists_chained
  have hreached : ({ scanned with allowMissing := false }.setOptions .default).Reached :=
    ⟨Source.chained, ["d"], scanned, false, .default, [], hscan, rfl⟩
  obtain ⟨config, hc, hname, hinherits⟩ := exists_of_isChained hreached hchained
    (List.mem_cons_of_mem _ (List.mem_cons_of_mem _ List.mem_cons_self))
  simp only [leads, Bool.and_eq_true] at hleads
  obtain ⟨parent, hparent, hparentName⟩ := exists_of_toOption hleads.1.1
  have ha : parent.name = "a" := of_decide_eq_true hparentName
  refine ⟨scanned, config, parent, hscan, hc, hname, hinherits ▸ List.mem_cons_self, hparent, ha,
    fun hpath => ?_⟩
  rw [ha] at hpath
  -- the last edge of a path would lead to `a`
  obtain ⟨source, -, hdraws⟩ := TransGen.tail'_iff.mp hpath
  exact not_draws_of_isChained hchained source hdraws

end InheritanceGraph

end ReleaseFlags
