/-
# How far sorting makes the order of findings canonical

Findings are sorted by a part of what they hold.  Two of them tie when they agree on that part:
issues of one linter at one place (`Issue.Tied`), capabilities of one kind and type that packages of
one directory reach on paths whose hops look alike (`Capability.Tied`).

A stable sort leaves tied findings in the order in which they came and forgets every other order.
So **two lists are sorted alike exactly when each finding ties with the same ones in the same order
in both, and all arrangements of a list are sorted alike exactly when no two different findings of
it tie** (`sorts_upTo_ties`).  Packages of one directory with different names are enough for two
arrangements that are not (`sort_ne_of_tied`).
-/
import UpgradeAudit.Proofs.Report.Records
import UpgradeAudit.Proofs.Sorting

namespace UpgradeAudit

variable {α : Type}

/-! ## 1. What a stable sort keeps -/

/-- The members of a list that tie with an element, in their order. -/
def tiesOf (Tied : α → α → Prop) [DecidableRel Tied] (a : α) (l : List α) : List α :=
  l.filter fun b => Tied a b

/-- A sort that goes by an order and leaves what ties as it came. -/
structure SortsUpTo (order : α → α → Ordering) (Tied : α → α → Prop) [DecidableRel Tied]
    (sort : List α → List α) : Prop where
  perm (l : List α) : (sort l).Perm l
  ascending (l : List α) : (sort l).Pairwise fun a b => (order a b).isLE = true
  stable (l : List α) (a : α) : tiesOf Tied a (sort l) = tiesOf Tied a l
  alike (l l' : List α) : sort l' = sort l ↔ ∀ a, tiesOf Tied a l' = tiesOf Tied a l
  /-- The arrangements of a list are sorted alike when no two different members of it tie, and only
  then. -/
  canonical (l : List α) : (∀ l', l'.Perm l → sort l' = sort l) ↔
    ∀ a ∈ l, ∀ b ∈ l, Tied a b → a = b

section ties

variable {order : α → α → Ordering} {Tied : α → α → Prop}

theorem tied_self [Std.ReflCmp order] (hties : ∀ a b, order a b = .eq ↔ Tied a b) (a : α) :
    Tied a a := (hties a a).1 Std.ReflCmp.compare_self

variable [DecidableRel Tied]

theorem mem_tiesOf {a b : α} {l : List α} : b ∈ tiesOf Tied a l ↔ b ∈ l ∧ Tied a b := by
  rw [tiesOf, List.mem_filter, decide_eq_true_eq]

theorem tiesOf_cons (a b : α) (l : List α) :
    tiesOf Tied a (b :: l) = if Tied a b then b :: tiesOf Tied a l else tiesOf Tied a l := by
  simp only [tiesOf, List.filter_cons, decide_eq_true_eq]

variable [Std.TransCmp order] (hties : ∀ a b, order a b = .eq ↔ Tied a b)

include hties

/-- A stable sort leaves what ties in the order in which it came. -/
theorem StableSort.tiesOf_eq {l sorted : List α} (h : StableSort order l sorted) (a : α) :
    tiesOf Tied a sorted = tiesOf Tied a l := by
  have hpart : (tiesOf Tied a l).Pairwise fun b c => (order b c).isLE = true := by
    refine List.pairwise_of_forall_mem_list fun b hb c hc => ?_
    have hab : order a b = .eq := (hties a b).2 (mem_tiesOf.1 hb).2
    have hac : order a c = .eq := (hties a c).2 (mem_tiesOf.1 hc).2
    rw [← Std.TransCmp.congr_left hab, hac]
    rfl
  have hsub : (tiesOf Tied a l).Sublist (tiesOf Tied a sorted) := by
    have hfilter := (h.stable _ hpart List.filter_sublist).filter fun b => decide (Tied a b)
    simpa only [tiesOf, List.filter_filter, Bool.and_self] using hfilter
  exact (hsub.eq_of_length (h.perm.filter _).length_eq.symm).symm

theorem subset_of_tiesOf_eq {l l' : List α} (h : ∀ a, tiesOf Tied a l = tiesOf Tied a l') :
    l ⊆ l' := by
  intro a ha
  have hmem : a ∈ tiesOf Tied a l := mem_tiesOf.2 ⟨ha, tied_self hties a⟩
  rw [h a] at hmem
  exact (mem_tiesOf.1 hmem).1

omit [DecidableRel Tied] hties in
/-- Nothing comes before the head of what ascends. -/
theorem isLE_of_mem_cons {a b : α} {l : List α}
    (h : (a :: l).Pairwise fun a b => (order a b).isLE = true) (hb : b ∈ a :: l) :
    (order a b).isLE = true := by
  rcases List.mem_cons.1 hb with rfl | hb
  · rw [@Std.ReflCmp.compare_self _ order _ b]
    rfl
  · exact (List.pairwise_cons.1 h).1 b hb

/-- What ascends is told by what ties in it. -/
theorem eq_of_tiesOf_eq : ∀ {l l' : List α}, (l.Pairwise fun a b => (order a b).isLE = true) →
    (l'.Pairwise fun a b => (order a b).isLE = true) →
    (∀ a, tiesOf Tied a l = tiesOf Tied a l') → l = l'
  | [], l', _, _, h => by
    have hnone : l' ⊆ [] := subset_of_tiesOf_eq hties fun a => (h a).symm
    exact (List.subset_nil.1 hnone).symm
  | a :: l, [], _, _, h => by
    have hnone : a :: l ⊆ [] := subset_of_tiesOf_eq hties h
    exact List.subset_nil.1 hnone
  | a :: l, b :: l', hl, hl', h => by
    have ha : a ∈ b :: l' := subset_of_tiesOf_eq hties h List.mem_cons_self
    have hb : b ∈ a :: l := subset_of_tiesOf_eq hties (fun c => (h c).symm) List.mem_cons_self
    have htied : Tied a b := (hties a b).1
      (Std.OrientedCmp.isLE_antisymm (isLE_of_mem_cons hl hb) (isLE_of_mem_cons hl' ha))
    -- Both heads tie with `a`, so each is the first that does.
    have heads := h a
    rw [tiesOf_cons, tiesOf_cons, if_pos (tied_self hties a), if_pos htied] at heads
    obtain ⟨rfl, -⟩ := List.cons.inj heads
    have tails (c : α) : tiesOf Tied c l = tiesOf Tied c l' := by
      have hc := h c
      rw [tiesOf_cons, tiesOf_cons] at hc
      split at hc
      · exact (List.cons.inj hc).2
      · exact hc
    rw [eq_of_tiesOf_eq (List.pairwise_cons.1 hl).2 (List.pairwise_cons.1 hl').2 tails]

variable {sort : List α → List α} (hsort : ∀ l, StableSort order l (sort l))

include hsort

/-- **Lists are sorted alike exactly when what ties comes in one order in both.** -/
theorem sort_eq_iff (l l' : List α) :
    sort l' = sort l ↔ ∀ a, tiesOf Tied a l' = tiesOf Tied a l := by
  constructor
  · intro heq a
    rw [← (hsort l').tiesOf_eq hties a, ← (hsort l).tiesOf_eq hties a, heq]
  · intro h
    refine eq_of_tiesOf_eq hties (hsort l').ascending (hsort l).ascending fun a => ?_
    rw [(hsort l').tiesOf_eq hties a, (hsort l).tiesOf_eq hties a, h a]

/-- **All arrangements are sorted alike exactly when no two different members tie.** -/
theorem sort_canonical_iff (l : List α) :
    (∀ l', l'.Perm l → sort l' = sort l) ↔ ∀ a ∈ l, ∀ b ∈ l, Tied a b → a = b := by
  constructor
  · intro h a ha b hb htied
    by_contra hne
    have := Classical.decEq α
    -- Two arrangements that differ in nothing but which of the two comes first.
    obtain ⟨rest, hrest⟩ : ∃ rest, (a :: b :: rest).Perm l := by
      refine ⟨(l.erase a).erase b, ?_⟩
      have hb' : b ∈ l.erase a := (List.mem_erase_of_ne (Ne.symm hne)).2 hb
      exact (((List.perm_cons_erase hb').cons a).symm).trans (List.perm_cons_erase ha).symm
    have heq : sort (a :: b :: rest) = sort (b :: a :: rest) :=
      (h _ hrest).trans (h _ ((List.Perm.swap a b rest).trans hrest)).symm
    have heads := (sort_eq_iff hties hsort _ _).1 heq a
    simp only [tiesOf_cons, if_pos (tied_self hties a), if_pos htied] at heads
    exact hne (List.cons.inj heads).1
  · intro h l' hperm
    have hsorted : (sort l').Perm (sort l) :=
      (hsort l').perm.trans (hperm.trans (hsort l).perm.symm)
    refine hsorted.eq_of_pairwise ?_ (hsort l').ascending (hsort l).ascending
    intro a b ha hb hab hba
    refine h a (hperm.subset ((hsort l').perm.subset ha)) b ((hsort l).perm.subset hb) ?_
    exact (hties a b).1 (Std.OrientedCmp.isLE_antisymm hab hba)

theorem sortsUpTo_of_stableSort : SortsUpTo order Tied sort where
  perm l := (hsort l).perm
  ascending l := (hsort l).ascending
  stable l a := (hsort l).tiesOf_eq hties a
  alike := sort_eq_iff hties hsort
  canonical := sort_canonical_iff hties hsort

end ties

/-! ## 2. Issues that tie -/

/-- Issues of one linter at one line and column of a file. -/
structure Issue.Tied (a b : Issue) : Prop where
  linter : a.linter = b.linter
  file : a.position.filename = b.position.filename
  line : a.position.line = b.position.line
  column : a.position.column = b.position.column

theorem Issue.order_eq_iff (a b : Issue) : order a b = .eq ↔ Tied a b := by
  simp only [order, Ordering.then_eq_eq, Std.LawfulEqCmp.compare_eq_iff_eq]
  constructor
  · rintro ⟨hlinter, hfile, hline, hcolumn⟩
    exact ⟨hlinter, hfile, hline, hcolumn⟩
  · intro h
    exact ⟨h.linter, h.file, h.line, h.column⟩

instance : DecidableRel Issue.Tied := fun a b => decidable_of_iff _ (Issue.order_eq_iff a b)

/-! ## 3. Capabilities that tie -/

/-- Where a hop seems to be: what is not known of its site is an empty name, or -1. -/
def Hop.place (hop : Hop) : String × Int × Int :=
  match hop.site with
  | none => ("", -1, -1)
  | some site => (site.filename, site.line.getD (-1), site.column.getD (-1))

/-- Hops with one name that seem to be in one place. -/
def Hop.Alike (a b : Hop) : Prop := a.name = b.name ∧ a.place = b.place

/-- Capabilities of one kind and type, of packages in one directory, whose paths look alike hop for
hop. -/
structure Capability.Tied (a b : Capability) : Prop where
  kind : a.kind = b.kind
  dir : a.packageDir = b.packageDir
  type : a.type = b.type
  path : List.Forall₂ Hop.Alike a.path b.path

theorem Capability.hopOrder_eq_iff (a b : Hop) : hopOrder a b = .eq ↔ a.Alike b := by
  simp only [hopOrder, Ordering.then_eq_eq, Std.LawfulEqCmp.compare_eq_iff_eq, Hop.Alike]
  rcases a with ⟨name, _ | site⟩ <;> rcases b with ⟨name', _ | site'⟩ <;> simp [Hop.place]

theorem compareLex_eq_iff {cmp : α → α → Ordering} {R : α → α → Prop}
    (h : ∀ a b, cmp a b = .eq ↔ R a b) : ∀ as bs : List α,
    List.compareLex cmp as bs = .eq ↔ List.Forall₂ R as bs
  | [], [] => by simp [List.compareLex_nil_nil]
  | [], b :: bs => by simp [List.compareLex_nil_cons]
  | a :: as, [] => by simp [List.compareLex_cons_nil]
  | a :: as, b :: bs => by
    rw [List.compareLex_cons_cons, Ordering.then_eq_eq, h, compareLex_eq_iff h as bs,
      List.forall₂_cons]

theorem Capability.order_eq_iff (a b : Capability) : order a b = .eq ↔ Tied a b := by
  simp only [order, Ordering.then_eq_eq, Std.LawfulEqCmp.compare_eq_iff_eq,
    CapabilityKind.code_injective.eq_iff, CapabilityType.code_injective.eq_iff,
    compareLex_eq_iff hopOrder_eq_iff]
  constructor
  · rintro ⟨-, hkind, hdir, htype, hpath⟩
    exact ⟨hkind, hdir, htype, hpath⟩
  · intro h
    exact ⟨h.path.length_eq, h.kind, h.dir, h.type, h.path⟩

instance : DecidableRel Capability.Tied := fun a b =>
  decidable_of_iff _ (Capability.order_eq_iff a b)

/-! ## 4. Findings -/

/-- **Sorting makes the order of findings canonical but for those that tie.**  This holds of
capabilities and of issues. -/
theorem sorts_upTo_ties :
    SortsUpTo Capability.order Capability.Tied Capability.sort ∧
      SortsUpTo Issue.order Issue.Tied Issue.sort :=
  ⟨sortsUpTo_of_stableSort Capability.order_eq_iff Capability.stableSort,
    sortsUpTo_of_stableSort Issue.order_eq_iff Issue.stableSort⟩

/-- A package of a directory that reaches the network. -/
def dialing (package : String) : Capability where
  packageName := package
  packageDir := "example.com/d"
  kind := .network
  type := .direct
  path := [⟨"net.Dial", none⟩]
  path_ne_nil := List.cons_ne_nil _ _

/-- Something that a linter says about the first call of a line. -/
def remarking (text : String) : Issue where
  linter := "revive"
  text := text
  position := ⟨"a.go", 3, 2, 40⟩
  sourceLines := ["f(x)"]

/-- Two arrangements of a package and its tests, and two of what a linter says about one call, are
not sorted alike. -/
theorem sort_ne_of_tied :
    ([dialing "d_test", dialing "d"].Perm [dialing "d", dialing "d_test"] ∧
      Capability.sort [dialing "d_test", dialing "d"]
        ≠ Capability.sort [dialing "d", dialing "d_test"]) ∧
    [remarking "unused result", remarking "bad name"].Perm
        [remarking "bad name", remarking "unused result"] ∧
      Issue.sort [remarking "unused result", remarking "bad name"]
        ≠ Issue.sort [remarking "bad name", remarking "unused result"] := by
  refine ⟨⟨.swap _ _ _, ?_⟩, .swap _ _ _, ?_⟩
  · rw [Capability.sort, Capability.sort, List.mergeSort_of_pairwise (by decide +kernel),
      List.mergeSort_of_pairwise (by decide +kernel)]
    decide
  · rw [Issue.sort, Issue.sort, List.mergeSort_of_pairwise (by decide +kernel),
      List.mergeSort_of_pairwise (by decide +kernel)]
    decide

end UpgradeAudit
