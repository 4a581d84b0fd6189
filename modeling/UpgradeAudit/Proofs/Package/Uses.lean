/-
# The packages that a consumer uses

In the mode `used` the scope is computed in two steps: the packages of the dependency that the
consumer's packages list among their imports and dependencies (`usedPackages`), and of these the
ones that no other of them depends on (`minimise`).  The first step looks up every listed path, so
it can fail; what it gives is in the graph, so the second cannot.

* `usedPackages` fails exactly when a path that the consumer lists is missing from the graph, and
  gives the used packages otherwise (`usedPackages_cases`);
* the scope fails exactly then, or when nothing is used (`scope_cases`);
* the directories of the linters come from another computation, over the whole module, and hold
  those of every used package (`mem_dirs_of_within`);
* nothing depends on the order in which the graph or its packages list things, nor on how often
  (`Rearranged.toOption_scope`), for all of it is said by membership.

Foreign code stands out: the import `C` is never looked up and never counts as used, even where a
package of that name is in the graph (`scope_foreign`).
-/
import UpgradeAudit.Proofs.Package.Scopes
import UpgradeAudit.Proofs.Tables

namespace UpgradeAudit

namespace PackageGraph

/-! ## 1. Graphs and uses -/

/-- Each package once, under its own import path. -/
structure Keyed (graph : PackageGraph) : Prop where
  nodup : (Table.keys graph).Nodup
  own : ∀ e ∈ graph, e.2.importPath = e.1

/-- A path at which a graph has a package of a module, the standard library apart. -/
def Within (graph : PackageGraph) (module path : String) : Prop :=
  ∃ p, Table.get? path graph = some p ∧ p.standard = false ∧ p.modulePath = module

/-- A path that a package of the consumer lists among its imports or dependencies, foreign code
apart. -/
def Lists (graph : PackageGraph) (consumer path : String) : Prop :=
  ∃ e ∈ graph, e.2.standard = false ∧ e.2.modulePath = consumer
    ∧ (path ∈ e.2.imports ∨ path ∈ e.2.deps) ∧ path ≠ foreignImport

/-- A package of the dependency that a package of the consumer lists. -/
def Uses (graph : PackageGraph) (dep consumer path : String) : Prop :=
  Lists graph consumer path ∧ Within graph dep path

/-- A used package that no other used package depends on. -/
def Outermost (graph : PackageGraph) (dep consumer path : String) : Prop :=
  Uses graph dep consumer path ∧
    ∀ other, Uses graph dep consumer other → other ≠ path → dependsOn graph other path = false

/-- What keeps a scope from being found: the consumer lists a path that the graph does not have, or
no package of the dependency. -/
def Unresolved (graph : PackageGraph) (dep consumer : String) : Prop :=
  (∃ path, Lists graph consumer path ∧ Table.get? path graph = none) ∨
    ∀ path, ¬ Uses graph dep consumer path

variable {graph graph' : PackageGraph} {dep consumer path : String}

theorem keyed_graph (packages : List Package) : Keyed (Package.graph packages) where
  nodup := Table.nodup_keys_ofEntries _
  own := by
    intro e he
    obtain ⟨p, -, hp⟩ := List.mem_map.1 (Table.mem_ofEntries.1 he).mem
    rw [← (Prod.mk.inj hp).1, ← (Prod.mk.inj hp).2]

theorem mem_ofModule {module : String} {p : Package} :
    p ∈ ofModule module graph ↔
      p ∈ Table.values graph ∧ p.standard = false ∧ p.modulePath = module := by
  simp [ofModule]

theorem mem_needs {p : Package} :
    path ∈ needs p ↔ (path ∈ p.imports ∨ path ∈ p.deps) ∧ path ≠ foreignImport := by
  rw [needs, List.mem_filter, List.mem_append, decide_eq_true_eq]

theorem lists_iff :
    Lists graph consumer path ↔ ∃ p ∈ ofModule consumer graph, path ∈ needs p := by
  simp only [Lists, mem_ofModule, mem_needs, Table.values, List.mem_map]
  constructor
  · rintro ⟨e, he, hstandard, hmodule, hlisted⟩
    exact ⟨e.2, ⟨⟨e, he, rfl⟩, hstandard, hmodule⟩, hlisted⟩
  · rintro ⟨p, ⟨⟨e, he, rfl⟩, hstandard, hmodule⟩, hlisted⟩
    exact ⟨e, he, hstandard, hmodule, hlisted⟩

/-! ## 2. What is used -/

/-- Whether a graph has a package of a module at a path. -/
def isWithin (graph : PackageGraph) (module path : String) : Bool :=
  match Table.get? path graph with
  | some p => ! p.standard && p.modulePath = module
  | none => false

theorem isWithin_iff {module : String} :
    isWithin graph module path = true ↔ Within graph module path := by
  unfold isWithin Within
  cases Table.get? path graph <;> simp

/-- A search through a list that fails at what is missing and collects what is kept. -/
theorem foldlM_collect {α : Type} {step : List α → α → Except Cause (List α)} {missing : α → Prop}
    {keep : α → Bool}
    (hmissing : ∀ used a, missing a → ∃ message, step used a = .error (.resolution message))
    (hkeep : ∀ used a, ¬ missing a → step used a = .ok (if keep a then used ++ [a] else used))
    (as used : List α) :
    ((∃ a ∈ as, missing a) ∧ ∃ message, as.foldlM step used = .error (.resolution message)) ∨
      (∀ a ∈ as, ¬ missing a) ∧ as.foldlM step used = .ok (used ++ as.filter keep) := by
  induction as generalizing used with
  | nil => exact Or.inr ⟨by simp, by simp [pure, Except.pure]⟩
  | cons a as ih =>
    rw [List.foldlM_cons]
    by_cases ha : missing a
    · obtain ⟨message, herror⟩ := hmissing used a ha
      exact Or.inl ⟨⟨a, List.mem_cons_self, ha⟩, message, by rw [herror]; rfl⟩
    · rw [hkeep used a ha]
      rcases ih (if keep a then used ++ [a] else used) with ⟨⟨b, hb, hbm⟩, herror⟩ | ⟨hall, hok⟩
      · exact Or.inl ⟨⟨b, List.mem_cons_of_mem _ hb, hbm⟩, herror⟩
      · refine Or.inr ⟨List.forall_mem_cons.2 ⟨ha, hall⟩, hok.trans ?_⟩
        by_cases hkept : keep a <;> simp [hkept]

theorem usedBy_cases (dep : String) (graph : PackageGraph) (p : Package) :
    ((∃ path ∈ needs p, Table.get? path graph = none) ∧
        ∃ message, usedBy dep graph p = .error (.resolution message)) ∨
      (∀ path ∈ needs p, Table.get? path graph ≠ none) ∧
        usedBy dep graph p = .ok ((needs p).filter (isWithin graph dep)) := by
  refine foldlM_collect (fun used path hmissing => ?_) (fun used path hlisted => ?_) (needs p) []
  · rw [hmissing]
    exact ⟨_, rfl⟩
  · obtain ⟨q, hq⟩ := Option.ne_none_iff_exists'.1 hlisted
    simp only [hq, isWithin]

/-- What is done for every member of a list fails with the first that fails. -/
theorem mapM_cases {α β : Type} {f : α → Except Cause β} {missing : α → Prop} {g : α → β}
    (hf : ∀ a, (missing a ∧ ∃ message, f a = .error (.resolution message)) ∨
      ¬ missing a ∧ f a = .ok (g a)) (as : List α) :
    ((∃ a ∈ as, missing a) ∧ ∃ message, as.mapM f = .error (.resolution message)) ∨
      (∀ a ∈ as, ¬ missing a) ∧ as.mapM f = .ok (as.map g) := by
  induction as with
  | nil => exact Or.inr ⟨by simp, rfl⟩
  | cons a as ih =>
    rw [List.mapM_cons]
    rcases hf a with ⟨ha, message, herror⟩ | ⟨ha, hok⟩
    · exact Or.inl ⟨⟨a, List.mem_cons_self, ha⟩, message, by rw [herror]; rfl⟩
    · rw [hok]
      rcases ih with ⟨⟨b, hb, hbm⟩, message, herror⟩ | ⟨hall, hrest⟩
      · exact Or.inl ⟨⟨b, List.mem_cons_of_mem _ hb, hbm⟩, message, by rw [herror]; rfl⟩
      · exact Or.inr ⟨List.forall_mem_cons.2 ⟨ha, hall⟩, by rw [hrest]; rfl⟩

/-- **The used packages are found unless the consumer lists a path that is missing.** -/
theorem usedPackages_cases (dep consumer : String) (graph : PackageGraph) :
    ((∃ path, Lists graph consumer path ∧ Table.get? path graph = none) ∧
        ∃ message, usedPackages dep consumer graph = .error (.resolution message)) ∨
      (∀ path, Lists graph consumer path → Table.get? path graph ≠ none) ∧
        ∃ used, usedPackages dep consumer graph = .ok used ∧
          ∀ path, path ∈ used ↔ Uses graph dep consumer path := by
  have hcases (p : Package) :
      ((∃ path ∈ needs p, Table.get? path graph = none) ∧
          ∃ message, usedBy dep graph p = .error (.resolution message)) ∨
        (¬ ∃ path ∈ needs p, Table.get? path graph = none) ∧
          usedBy dep graph p = .ok ((needs p).filter (isWithin graph dep)) := by
    simpa only [not_exists, not_and] using usedBy_cases dep graph p
  unfold usedPackages
  rcases mapM_cases hcases (ofModule consumer graph) with
    ⟨⟨p, hp, path, hpath, hmissing⟩, message, herror⟩ | ⟨hall, hok⟩
  · exact Or.inl ⟨⟨path, lists_iff.2 ⟨p, hp, hpath⟩, hmissing⟩, message, by rw [herror]; rfl⟩
  · refine Or.inr ⟨fun path hlists hmissing => ?_, _, by rw [hok]; rfl, fun path => ?_⟩
    · obtain ⟨p, hp, hpath⟩ := lists_iff.1 hlists
      exact hall p hp ⟨path, hpath, hmissing⟩
    · simp only [Counts.mem_sortedNames, List.mem_flatten, List.mem_map, Uses, lists_iff]
      constructor
      · rintro ⟨_, ⟨p, hp, rfl⟩, hpath⟩
        obtain ⟨hneeds, hwithin⟩ := List.mem_filter.1 hpath
        exact ⟨⟨p, hp, hneeds⟩, isWithin_iff.1 hwithin⟩
      · rintro ⟨⟨p, hp, hneeds⟩, hwithin⟩
        exact ⟨_, ⟨p, hp, rfl⟩, List.mem_filter.2 ⟨hneeds, isWithin_iff.2 hwithin⟩⟩

/-! ## 3. The scope -/

/-- Used packages are in the graph, so minimising them cannot fail. -/
theorem minimise_used {used : List String}
    (h : ∀ path, path ∈ used ↔ Uses graph dep consumer path) :
    ∃ paths, minimise used graph = .ok paths ∧ Text.Ascending paths
      ∧ ∀ path, path ∈ paths ↔ Outermost graph dep consumer path := by
  have hlisted : ∀ path ∈ used, (Table.get? path graph).isSome := by
    intro path hpath
    obtain ⟨-, p, hp, -⟩ := (h path).1 hpath
    rw [hp]
    rfl
  obtain ⟨paths, hok, hascending, hmem⟩ := minimise_of_listed hlisted
  refine ⟨paths, hok, hascending, fun path => ?_⟩
  simp only [hmem, Foremost, Outermost, h]

/-- **The scope is found unless something keeps it from being found**, and then holds the outermost
of the used packages. -/
theorem scope_cases (graph : PackageGraph) (dep : String) (hconsumer : consumer ≠ "") :
    (Unresolved graph dep consumer ∧
        ∃ message, scope dep graph .used (some consumer) = .error (.resolution message)) ∨
      ¬ Unresolved graph dep consumer ∧
        ∃ paths, scope dep graph .used (some consumer) = .ok paths ∧ Text.Ascending paths
          ∧ ∀ path, path ∈ paths ↔ Outermost graph dep consumer path := by
  have hscope : scope dep graph .used (some consumer) =
      (usedPackages dep consumer graph >>= fun used =>
        if used.isEmpty then .error (.resolution (dep ++ " is not imported by " ++ consumer))
        else minimise used graph) := by
    unfold scope
    dsimp only
    split
    · rename_i heq
      cases heq
    · rename_i heq
      exact absurd (Option.some.inj heq) hconsumer
    · rename_i heq
      rw [Option.some.inj heq]
  rw [hscope]
  rcases usedPackages_cases dep consumer graph with
    ⟨hmissing, message, herror⟩ | ⟨hlisted, used, hused, hmem⟩
  · exact Or.inl ⟨Or.inl hmissing, message, by rw [herror]; rfl⟩
  · rw [hused]
    show (_ ∧ ∃ message, (if used.isEmpty then _ else minimise used graph) = _) ∨
      _ ∧ ∃ paths, (if used.isEmpty then _ else minimise used graph) = _ ∧ _
    cases used with
    | nil => exact Or.inl ⟨Or.inr fun path hpath => absurd ((hmem path).2 hpath) (by simp), _, rfl⟩
    | cons first rest =>
      refine Or.inr ⟨?_, minimise_used hmem⟩
      rintro (⟨path, hlists, hnone⟩ | hnone)
      · exact hlisted path hlists hnone
      · exact hnone first ((hmem first).1 List.mem_cons_self)

/-! ## 4. Directories -/

/-- A package of a module is among its packages, and its directory among its directories. -/
theorem mem_dirs_of_within (hkeyed : Keyed graph) (h : Within graph dep path) :
    ∃ p ∈ sortedOfModule dep graph, p.importPath = path
      ∧ (p.dir ≠ "" → p.dir ∈ dirs dep graph) := by
  obtain ⟨p, hp, hstandard, hmodule⟩ := h
  have hmem : (path, p) ∈ graph := (Table.mem_iff_get? hkeyed.nodup).2 hp
  have hof : p ∈ ofModule dep graph :=
    mem_ofModule.2 ⟨List.mem_map_of_mem (f := Prod.snd) hmem, hstandard, hmodule⟩
  refine ⟨p, List.mem_mergeSort.2 hof, hkeyed.own _ hmem, fun hdir => ?_⟩
  rw [dirs, Counts.mem_sortedNames, List.mem_filter]
  exact ⟨List.mem_map_of_mem (f := Package.dir) hof, by simpa using hdir⟩

/-! ## 5. Order and repetition -/

/-- A package that is listed again: its imports and dependencies in any order and any number. -/
structure Relisted (p q : Package) : Prop where
  same : q = { p with imports := q.imports, deps := q.deps }
  imports : ∀ path, path ∈ q.imports ↔ path ∈ p.imports
  deps : ∀ path, path ∈ q.deps ↔ path ∈ p.deps

/-- A graph that is listed again: its packages in any order, each of them listed again. -/
def Rearranged (graph graph' : PackageGraph) : Prop :=
  ∃ middle : PackageGraph, List.Forall₂ (fun e d => d.1 = e.1 ∧ Relisted e.2 d.2) graph middle
    ∧ middle.Perm graph'

theorem Relisted.symm {p q : Package} (h : Relisted p q) : Relisted q p where
  same := by rw [h.same]
  imports path := (h.imports path).symm
  deps path := (h.deps path).symm

/-- Two graphs whose packages are listed again in each other. -/
structure Alike (graph graph' : PackageGraph) : Prop where
  forth : ∀ e ∈ graph, ∃ d ∈ graph', d.1 = e.1 ∧ Relisted e.2 d.2
  back : ∀ d ∈ graph', ∃ e ∈ graph, e.1 = d.1 ∧ Relisted d.2 e.2

theorem Alike.symm (h : Alike graph graph') : Alike graph' graph := ⟨h.back, h.forth⟩

theorem Rearranged.alike (h : Rearranged graph graph') : Alike graph graph' := by
  obtain ⟨middle, hlisted, hperm⟩ := h
  have hmiddle : Alike graph middle := by
    clear hperm
    induction hlisted with
    | nil => exact ⟨by simp, by simp⟩
    | @cons e d graph middle hed _ ih =>
      refine ⟨fun f hf => ?_, fun f hf => ?_⟩
      · rcases List.mem_cons.1 hf with rfl | hf
        · exact ⟨d, List.mem_cons_self, hed⟩
        · obtain ⟨g, hg, hfg⟩ := ih.forth f hf
          exact ⟨g, List.mem_cons_of_mem _ hg, hfg⟩
      · rcases List.mem_cons.1 hf with rfl | hf
        · exact ⟨e, List.mem_cons_self, hed.1.symm, hed.2.symm⟩
        · obtain ⟨g, hg, hfg⟩ := ih.back f hf
          exact ⟨g, List.mem_cons_of_mem _ hg, hfg⟩
  exact ⟨fun e he => (hmiddle.forth e he).imp fun d hd => ⟨hperm.subset hd.1, hd.2⟩,
    fun d hd => hmiddle.back d (hperm.symm.subset hd)⟩

theorem Rearranged.nodup (h : Rearranged graph graph') (hnodup : (Table.keys graph).Nodup) :
    (Table.keys graph').Nodup := by
  obtain ⟨middle, hlisted, hperm⟩ := h
  have hkeys : Table.keys middle = Table.keys graph := by
    clear hperm hnodup
    induction hlisted with
    | nil => rfl
    | cons hed _ ih => exact congrArg₂ List.cons hed.1 ih
  exact (hperm.map Prod.fst).nodup_iff.1 (show (Table.keys middle).Nodup from hkeys ▸ hnodup)

namespace Alike

variable (h : Alike graph graph') (hnodup : (Table.keys graph).Nodup)
  (hnodup' : (Table.keys graph').Nodup)

include h

theorem lists (hlists : Lists graph consumer path) : Lists graph' consumer path := by
  obtain ⟨e, he, hstandard, hmodule, hlisted, hne⟩ := hlists
  obtain ⟨d, hd, -, hed⟩ := h.forth e he
  refine ⟨d, hd, ?_, ?_, ?_, hne⟩
  · rw [hed.same, hstandard]
  · rw [hed.same, hmodule]
  · rwa [hed.imports, hed.deps]

include hnodup hnodup'

/-- The same look-up finds the same package, listed again. -/
theorem get?_some {p : Package} (hget : Table.get? path graph = some p) :
    ∃ q, Table.get? path graph' = some q ∧ Relisted p q := by
  obtain ⟨⟨key, q⟩, hd, rfl, hpq⟩ := h.forth (path, p) ((Table.mem_iff_get? hnodup).2 hget)
  exact ⟨q, (Table.mem_iff_get? hnodup').1 hd, hpq⟩

theorem get?_none (hget : Table.get? path graph = none) : Table.get? path graph' = none := by
  cases hget' : Table.get? path graph' with
  | none => rfl
  | some q =>
    obtain ⟨p, hp, -⟩ := h.symm.get?_some hnodup' hnodup hget'
    rw [hget] at hp
    cases hp

theorem within {module : String} (hwithin : Within graph module path) :
    Within graph' module path := by
  obtain ⟨p, hp, hstandard, hmodule⟩ := hwithin
  obtain ⟨q, hq, hpq⟩ := h.get?_some hnodup hnodup' hp
  exact ⟨q, hq, by rw [hpq.same, hstandard], by rw [hpq.same, hmodule]⟩

theorem uses_iff : Uses graph dep consumer path ↔ Uses graph' dep consumer path :=
  ⟨fun hused => ⟨h.lists hused.1, h.within hnodup hnodup' hused.2⟩,
    fun hused => ⟨h.symm.lists hused.1, h.symm.within hnodup' hnodup hused.2⟩⟩

theorem dependsOn_eq (other path : String) :
    dependsOn graph other path = dependsOn graph' other path := by
  unfold dependsOn
  cases hget : Table.get? other graph with
  | none => rw [h.get?_none hnodup hnodup' hget]
  | some p =>
    obtain ⟨q, hq, hpq⟩ := h.get?_some hnodup hnodup' hget
    rw [hq, Bool.eq_iff_iff]
    simpa using (hpq.deps path).symm

theorem unresolved (hun : Unresolved graph dep consumer) : Unresolved graph' dep consumer := by
  rcases hun with ⟨path, hlists, hmissing⟩ | hnone
  · exact Or.inl ⟨path, h.lists hlists, h.get?_none hnodup hnodup' hmissing⟩
  · exact Or.inr fun path hused => hnone path ((h.uses_iff hnodup hnodup').2 hused)

theorem outermost_iff :
    Outermost graph dep consumer path ↔ Outermost graph' dep consumer path := by
  simp only [Outermost, h.uses_iff hnodup hnodup', h.dependsOn_eq hnodup hnodup']

end Alike

/-- **The same graph, listed again, has the same scope, or none in both.** -/
theorem Rearranged.toOption_scope (h : Rearranged graph graph') (hnodup : (Table.keys graph).Nodup)
    (dep : String) (hconsumer : consumer ≠ "") :
    (scope dep graph .used (some consumer)).toOption
      = (scope dep graph' .used (some consumer)).toOption := by
  have hnodup' := h.nodup hnodup
  have halike := h.alike
  rcases scope_cases graph dep hconsumer with
      ⟨hun, message, herror⟩ | ⟨hres, paths, hok, hasc, hmem⟩ <;>
    rcases scope_cases graph' dep hconsumer with
      ⟨hun', message', herror'⟩ | ⟨hres', paths', hok', hasc', hmem'⟩
  · rw [herror, herror']
    rfl
  · exact absurd (halike.unresolved hnodup hnodup' hun) hres'
  · exact absurd (halike.symm.unresolved hnodup' hnodup hun') hres
  · have heq : paths = paths' := hasc.eq_of_mem_iff hasc' fun path => by
      rw [hmem, hmem', halike.outermost_iff hnodup hnodup']
    rw [hok, hok', heq]

/-! ## 6. The whole -/

/-- **The scope of the used packages** is sound, complete and does not depend on any order. -/
theorem scope_of_uses (hkeyed : Keyed graph) (dep : String) (hconsumer : consumer ≠ "") :
    ((∃ message, scope dep graph .used (some consumer) = .error (.resolution message)) ↔
        Unresolved graph dep consumer)
      ∧ (¬ Unresolved graph dep consumer →
          ∃ paths, scope dep graph .used (some consumer) = .ok paths ∧ Text.Ascending paths
            ∧ ∀ path, path ∈ paths ↔ Outermost graph dep consumer path)
      ∧ (∀ path, Uses graph dep consumer path →
          ∃ p ∈ sortedOfModule dep graph, p.importPath = path
            ∧ (p.dir ≠ "" → p.dir ∈ dirs dep graph))
      ∧ (∀ used, usedPackages dep consumer graph = .ok used →
          (∀ path, path ∈ used ↔ Uses graph dep consumer path)
            ∧ ∃ paths, minimise used graph = .ok paths)
      ∧ ∀ graph', Rearranged graph graph' →
          (scope dep graph .used (some consumer)).toOption
            = (scope dep graph' .used (some consumer)).toOption := by
  refine ⟨?_, ?_, fun path hused => mem_dirs_of_within hkeyed hused.2, fun used hused => ?_,
    fun graph' h => h.toOption_scope hkeyed.nodup dep hconsumer⟩
  · rcases scope_cases graph dep hconsumer with ⟨hun, herror⟩ | ⟨hres, paths, hok, -⟩
    · exact ⟨fun _ => hun, fun _ => herror⟩
    · simp [hok, hres]
  · rcases scope_cases graph dep hconsumer with ⟨hun, -⟩ | ⟨-, hfound⟩
    · exact fun hres => absurd hun hres
    · exact fun _ => hfound
  · rcases usedPackages_cases dep consumer graph with ⟨-, message, herror⟩ | ⟨-, used', hok, hmem⟩
    · rw [herror] at hused
      cases hused
    · obtain rfl : used' = used := Except.ok.inj (hok.symm.trans hused)
      exact ⟨hmem, (minimise_used hmem).imp fun paths h => h.1⟩

/-- A package of a module. -/
def packageOf (module path : String) (needs : List String) : Package :=
  { listed path needs with modulePath := module, dir := path }

/-- The package `m` uses both packages of `d`, one of which needs the other. -/
def twiceUsed : PackageGraph := Package.graph
  [packageOf "m" "m" ["C", "d/low", "d/top"], packageOf "d" "d/top" ["d/low"],
    packageOf "d" "d/low" []]

/-- The graph `twiceUsed` from its end, its packages with their needs repeated. -/
def twiceUsedAgain : PackageGraph := Package.graph
  [packageOf "d" "d/low" [], packageOf "m" "m" ["d/top", "d/low", "C", "d/low"],
    packageOf "d" "d/top" ["d/low", "d/low"]]

theorem rearranged_twiceUsed : Rearranged twiceUsed twiceUsedAgain := by
  refine ⟨[("m", packageOf "m" "m" ["d/top", "d/low", "C", "d/low"]),
    ("d/top", packageOf "d" "d/top" ["d/low", "d/low"]), ("d/low", packageOf "d" "d/low" [])],
    ?_, by decide⟩
  have hlisted (module path : String) {needs needs' : List String}
      (h : ∀ path, path ∈ needs' ↔ path ∈ needs) :
      Relisted (packageOf module path needs) (packageOf module path needs') := ⟨rfl, h, h⟩
  refine .cons ⟨rfl, hlisted "m" "m" fun path => ?_⟩ (.cons
    ⟨rfl, hlisted "d" "d/top" fun path => ?_⟩ (.cons
    ⟨rfl, hlisted "d" "d/low" fun _ => Iff.rfl⟩ .nil))
  · simp only [List.mem_cons, List.not_mem_nil, or_false]
    tauto
  · simp

theorem scope_of_uses_twiceUsed :
    Keyed twiceUsed ∧ ¬ Unresolved twiceUsed "d" "m" ∧ Rearranged twiceUsed twiceUsedAgain
      ∧ ∃ paths, scope "d" twiceUsed .used (some "m") = .ok paths ∧ Text.Ascending paths
        ∧ (∀ path, path ∈ paths ↔ Outermost twiceUsed "d" "m" path)
        ∧ (scope "d" twiceUsedAgain .used (some "m")).toOption = some paths := by
  have hkeyed : Keyed twiceUsed := keyed_graph _
  obtain ⟨-, hgives, -, -, hagain⟩ := scope_of_uses hkeyed "d" (show "m" ≠ "" by decide)
  have hres : ¬ Unresolved twiceUsed "d" "m" := by
    rintro (⟨path, ⟨e, he, -, hmodule, hlisted, hne⟩, hmissing⟩ | hnone)
    · have hneeds : path ∈ needs (packageOf "m" "m" ["C", "d/low", "d/top"]) := by
        rcases List.mem_cons.1 he with rfl | he
        · exact mem_needs.2 ⟨hlisted, hne⟩
        · have hothers : ∀ d ∈ twiceUsed.tail, d.2.modulePath ≠ "m" := by decide
          exact absurd hmodule (hothers e he)
      have hfound : ∀ path ∈ needs (packageOf "m" "m" ["C", "d/low", "d/top"]),
          Table.get? path twiceUsed ≠ none := by decide
      exact hfound path hneeds hmissing
    · exact hnone "d/top" ⟨⟨_, List.mem_cons_self, rfl, rfl, Or.inl (by decide), by decide⟩,
        packageOf "d" "d/top" ["d/low"], rfl, rfl, rfl⟩
  obtain ⟨paths, hok, hascending, hmem⟩ := hgives hres
  refine ⟨hkeyed, hres, rearranged_twiceUsed, paths, hok, hascending, hmem, ?_⟩
  rw [← hagain twiceUsedAgain rearranged_twiceUsed, hok]
  rfl

/-- The package `m` lists nothing but `C`, and a package of that name belongs to `d`. -/
def foreignOnly : PackageGraph := Package.graph [packageOf "m" "m" ["C"], packageOf "d" "C" []]

/-- **A package by the name of foreign code is not used**: the consumer lists nothing that is
missing, and it lists a package of the dependency, but there is no scope. -/
theorem scope_foreign :
    Keyed foreignOnly
      ∧ ¬ ((∃ path, Lists foreignOnly "m" path ∧ Table.get? path foreignOnly = none) ∨
        ∀ e ∈ foreignOnly, e.2.standard = false → e.2.modulePath = "m" →
          ∀ path, path ∈ e.2.imports ∨ path ∈ e.2.deps → ¬ Within foreignOnly "d" path)
      ∧ scope "d" foreignOnly .used (some "m") = .error (.resolution "d is not imported by m") := by
  refine ⟨keyed_graph _, ?_, by decide +kernel⟩
  rintro (⟨path, ⟨e, he, -, hmodule, hlisted, hne⟩, -⟩ | hnone)
  · have hneeds : e.2.imports = [foreignImport] ∧ e.2.deps = [foreignImport] := by
      rcases List.mem_cons.1 he with rfl | he
      · exact ⟨rfl, rfl⟩
      · rw [List.mem_singleton.1 he] at hmodule
        exact absurd hmodule (by decide)
    rw [hneeds.1, hneeds.2, or_self, List.mem_singleton] at hlisted
    exact hne hlisted
  · exact hnone ("m", packageOf "m" "m" ["C"]) List.mem_cons_self rfl rfl "C"
      (Or.inl List.mem_cons_self) ⟨packageOf "d" "C" [], rfl, rfl, rfl⟩

end PackageGraph
end UpgradeAudit
