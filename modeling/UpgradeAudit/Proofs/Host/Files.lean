/-
# What stands at a path

Reading and writing a file depend on the tree only through what stands at its path
(`FileTree.standing`).  Two facts carry everything that is said about the manifest files:

* where a path leads does not depend on the tree, as long as it leads anywhere
  (`eq_destination_of_walk`): a walk only asks whether it may go on;
* a file written under one name leaves alone what stands under every other name in its directory
  (`spares_of_siblings`), because nothing that could be passed through was replaced.

A lock file beside its manifest is another file, unless it is the manifest itself
(`apart_of_ofPaths`), and then neither is changed when the other one is written
(`separate_of_ofPaths`).
-/
import UpgradeAudit.Manifest.Snapshot
import UpgradeAudit.Proofs.Path.Components

namespace UpgradeAudit

namespace FileTree

variable {t t' : FileTree} {path other : String} {content : Bytes} {loc : Location}

/-! ## 1. Reading and writing -/

/-- What stands at a path, or why the path cannot be followed. -/
def standing (t : FileTree) (path : String) : Except FileFault (Option FileEntry) :=
  (t.locate path).map t.entry?

theorem read_eq_ok_iff :
    t.read path = .ok content ↔ t.standing path = .ok (some (.file content)) := by
  unfold read standing
  cases t.locate path with
  | error fault => simp [bind, Except.bind, Except.map]
  | ok loc =>
    cases h : t.entry? loc with
    | none => simp [bind, Except.bind, Except.map, h]
    | some e => cases e <;> simp [bind, Except.bind, Except.map, h]

/-- Where the same stands at a path, it can be followed in neither tree, for the same reason, or in
both. -/
theorem locate_cases (h : t.standing path = t'.standing path) :
    (∃ fault, t.locate path = .error fault ∧ t'.locate path = .error fault) ∨
      ∃ loc loc', t.locate path = .ok loc ∧ t'.locate path = .ok loc' ∧
        t.entry? loc = t'.entry? loc' := by
  unfold standing at h
  cases hl : t.locate path with
  | error fault =>
    cases hl' : t'.locate path with
    | error fault' =>
      obtain rfl : fault = fault' := by simpa [hl, hl', Except.map] using h
      exact Or.inl ⟨fault, rfl, rfl⟩
    | ok loc' => simp [hl, hl', Except.map] at h
  | ok loc =>
    cases hl' : t'.locate path with
    | error fault' => simp [hl, hl', Except.map] at h
    | ok loc' => exact Or.inr ⟨loc, loc', rfl, rfl, by simpa [hl, hl', Except.map] using h⟩

/-- What is read depends on what stands at the path alone. -/
theorem read_congr (h : t.standing path = t'.standing path) : t.read path = t'.read path := by
  unfold read
  rcases locate_cases h with ⟨fault, hl, hl'⟩ | ⟨loc, loc', hl, hl', he⟩
  · rw [hl, hl']
    rfl
  · simp only [hl, hl', bind, Except.bind, he]

/-- A file is written where no directory stands. -/
theorem write_eq_ok_iff :
    t.write path content = .ok t' ↔
      ∃ loc, t.locate path = .ok loc ∧ t.entry? loc ≠ some .directory ∧ t' = t.put loc content := by
  unfold write
  cases t.locate path with
  | error fault => simp [bind, Except.bind]
  | ok loc =>
    cases h : t.entry? loc with
    | none => simp [bind, Except.bind, h, eq_comm]
    | some e => cases e <;> simp [bind, Except.bind, h, eq_comm]

theorem entry?_put_self (h : t.entry? loc ≠ some .directory) :
    entry? (t.put loc content) loc = some (.file content) := by
  unfold entry? at h ⊢
  split at h
  · exact absurd rfl h
  · rename_i hroot
    rw [if_neg hroot]
    exact Table.get?_set_self _ _ _

theorem entry?_put_of_ne {l : Location} (h : l ≠ loc) :
    entry? (t.put loc content) l = t.entry? l := by
  unfold entry?
  split
  · rfl
  · exact Table.get?_set_of_ne h _ _

/-! ## 2. Where a path leads -/

/-- Where components lead from a directory when nothing stops the walk. -/
def destination (here : Location) : List String → Location
  | [] => here
  | part :: rest =>
    if part = "." then destination here rest
    else if part = ".." then destination (above here) rest
    else destination (here ++ [part]) rest

theorem destination_append (here : Location) (xs ys : List String) :
    destination here (xs ++ ys) = destination (destination here xs) ys := by
  induction xs generalizing here with
  | nil => rfl
  | cons x xs ih =>
    simp only [List.cons_append, destination]
    split
    · exact ih here
    · split
      · exact ih (above here)
      · exact ih (here ++ [x])

/-- **A walk that ends, ends at one place in every tree.** -/
theorem eq_destination_of_walk {here x : Location} {parts : List String}
    (h : t.walk here parts = .ok x) : x = destination here parts := by
  fun_induction walk t here parts with
  | case1 here => simpa [destination, eq_comm] using h
  | case2 here rest ih => simpa [destination] using ih h
  | case3 here rest ih => simpa [destination] using ih h
  | case4 here part hdot hdots hsize =>
    rw [destination, if_neg hdot, if_neg hdots]
    simpa [destination, eq_comm] using h
  | case5 => simp at h
  | case6 => simp at h
  | case7 here part next rest hdot hdots hsize hdir ih =>
    rw [destination, if_neg hdot, if_neg hdots]
    exact ih h
  | case8 => simp at h
  | case9 => simp at h

/-- A component that can be passed through before one name can be before another. -/
theorem walk_cons_append {here x : Location} {part a : String} {init : List String}
    (hdot : part ≠ ".") (hdots : part ≠ "..")
    (h : t.walk here (part :: (init ++ [a])) = .ok x) (b : String) :
    t.walk here (part :: (init ++ [b])) = t.walk (here ++ [part]) (init ++ [b]) := by
  have passes (next next' : String) (rest rest' : List String)
      (h : t.walk here (part :: next :: rest) = .ok x) :
      t.walk here (part :: next' :: rest') = t.walk (here ++ [part]) (next' :: rest') := by
    rw [walk.eq_5 _ _ _ _ _ hdot hdots] at h ⊢
    split at h
    · cases h
    · rename_i hsize
      rw [if_neg hsize]
      cases he : t.entry? (here ++ [part]) with
      | none => simp [he] at h
      | some e =>
        cases e with
        | file c => simp [he] at h
        | directory => rfl
  cases init with
  | nil => exact passes a b [] [] h
  | cons next init => exact passes next next (init ++ [a]) (init ++ [b]) h

theorem walk_append_singleton {here x : Location} {init : List String} {a : String}
    (h : t.walk here (init ++ [a]) = .ok x) (b : String) :
    t.walk here (init ++ [b]) = t.walk (destination here init) [b] := by
  induction init generalizing here with
  | nil => rfl
  | cons part init ih =>
    rw [List.cons_append] at h ⊢
    by_cases hdot : part = "."
    · subst hdot
      exact ih h
    · by_cases hdots : part = ".."
      · subst hdots
        exact ih h
      · have passes := walk_cons_append hdot hdots h
        rw [passes, destination, if_neg hdot, if_neg hdots]
        exact ih ((passes a).symm.trans h)

/-- One component leads to the same place in every tree. -/
theorem walk_singleton (t t' : FileTree) (here : Location) (part : String) :
    t.walk here [part] = t'.walk here [part] := by
  by_cases hdot : part = "."
  · subst hdot
    rfl
  · by_cases hdots : part = ".."
    · subst hdots
      rfl
    · rw [walk.eq_4 _ _ _ hdot hdots, walk.eq_4 _ _ _ hdot hdots]

/-- A file in the place of what is no directory stops no walk that came through before. -/
theorem walk_put {here x : Location} {parts : List String} (hloc : t.entry? loc ≠ some .directory)
    (h : t.walk here parts = .ok x) : (t.put loc content).walk here parts = .ok x := by
  fun_induction walk t here parts with
  | case1 here => simpa [walk] using h
  | case2 here rest ih => simpa [walk] using ih h
  | case3 here rest ih => simpa [walk] using ih h
  | case4 here part hdot hdots hsize =>
    rw [walk.eq_4 _ _ _ hdot hdots, if_pos hsize]
    exact h
  | case5 => simp at h
  | case6 => simp at h
  | case7 here part next rest hdot hdots hsize hdir ih =>
    have hne : here ++ [part] ≠ loc := fun he => hloc (he ▸ hdir)
    rw [walk.eq_5 _ _ _ _ _ hdot hdots, if_neg hsize, entry?_put_of_ne hne, hdir]
    exact ih h
  | case8 => simp at h
  | case9 => simp at h

theorem locate_put {x : Location} (hloc : t.entry? loc ≠ some .directory)
    (h : t.locate path = .ok x) : (t.put loc content).locate path = .ok x := by
  unfold locate at h ⊢
  split at h
  · cases h
  · rename_i hne
    rw [if_neg hne]
    split at h
    · cases h
    · rename_i hsize
      rw [if_neg hsize]
      exact walk_put hloc h

/-- A path that leads somewhere was walked. -/
theorem walk_of_locate {x : Location} (h : t.locate path = .ok x) :
    t.walk (if path.toList.head? = some '/' then ["/"] else []) (components path) = .ok x := by
  unfold locate at h
  split at h
  · cases h
  · split at h
    · cases h
    · exact h

/-! ## 3. Different places -/

/-- Two paths that never lead to the same place. -/
def Apart (path other : String) : Prop :=
  ∀ (t : FileTree) (x : Location), t.locate path = .ok x → t.locate other ≠ .ok x

/-- What was written is what stands there. -/
theorem standing_write (h : t.write path content = .ok t') :
    t'.standing path = .ok (some (.file content)) := by
  obtain ⟨loc, hloc, hdir, rfl⟩ := write_eq_ok_iff.1 h
  rw [standing, locate_put hdir hloc]
  exact congrArg Except.ok (entry?_put_self hdir)

/-- Where a path leads is one place in all trees in which it leads anywhere. -/
theorem eq_of_locate {x y : Location} (h : t.locate path = .ok x) (h' : t'.locate path = .ok y) :
    x = y :=
  (eq_destination_of_walk (walk_of_locate h)).trans
    (eq_destination_of_walk (walk_of_locate h')).symm

/-- A file written under one path leaves what stands at another one, or is what stands there. -/
theorem standing_write_other {e : FileEntry} (h : t.write path content = .ok t')
    (hother : t.standing other = .ok (some e)) :
    t'.standing other = .ok (some e) ∨
      t'.standing other = .ok (some (.file content)) ∧
        ∃ loc, t.locate path = .ok loc ∧ t.locate other = .ok loc := by
  obtain ⟨loc, hloc, hdir, rfl⟩ := write_eq_ok_iff.1 h
  cases hx : t.locate other with
  | error fault => simp [standing, hx, Except.map] at hother
  | ok x =>
    rw [standing, locate_put hdir hx]
    by_cases hsame : x = loc
    · subst hsame
      exact Or.inr ⟨congrArg Except.ok (entry?_put_self hdir), x, hloc, rfl⟩
    · left
      rw [standing, hx] at hother
      exact (congrArg Except.ok (entry?_put_of_ne hsame)).trans hother

/-- Paths that lead to one place in some tree do not lead to different files in another. -/
theorem content_eq_of_locate {c c' : Bytes} {x : Location} (h : t.locate path = .ok x)
    (h' : t.locate other = .ok x) (hc : t'.standing path = .ok (some (.file c)))
    (hc' : t'.standing other = .ok (some (.file c'))) : c = c' := by
  unfold standing at hc hc'
  cases hy : t'.locate path with
  | error fault => simp [hy, Except.map] at hc
  | ok y =>
    cases hz : t'.locate other with
    | error fault => simp [hz, Except.map] at hc'
    | ok z =>
      obtain rfl := eq_of_locate h hy
      obtain rfl := eq_of_locate h' hz
      simp only [hy, hz, Except.map, Except.ok.injEq] at hc hc'
      simpa using hc.symm.trans hc'

/-- A file written under one path changes nothing about another path. -/
def Spares (path other : String) : Prop :=
  ∀ (t t' : FileTree) (content : Bytes), t.write path content = .ok t' →
    t'.standing other = t.standing other

/-! ## 4. The two manifest files -/

open UpgradeAudit.Path

/-- The components that are walked are those of the path. -/
theorem components_text {p : Path} (hp : p.Clean) (h : p.parts ≠ []) :
    components p.text = p.parts := by
  unfold components
  rw [if_neg (getLast?_text hp h), pieces_text hp h, List.filter_append]
  have hkept : ∀ part ∈ p.parts, part ≠ "" := fun part hpart => (hp part hpart).1
  simpa using hkept

/-- A path with components leads to where these lead from the root or the working directory. -/
theorem eq_destination_of_locate {p : Path} {x : Location} (hp : p.Clean) (h : p.parts ≠ [])
    (hx : t.locate p.text = .ok x) :
    x = destination (if p.slashes ≠ 0 then ["/"] else []) p.parts := by
  unfold locate at hx
  split at hx
  · cases hx
  · split at hx
    · cases hx
    · rw [components_text hp h] at hx
      simp only [head?_text hp h] at hx
      exact eq_destination_of_walk hx

/-- **Two names in one directory do not meddle with each other**, unless they are one. -/
theorem spares_of_siblings {p q : Path} {init : List String} {a b : String} (hp : p.Clean)
    (hq : q.Clean) (hslashes : p.slashes = q.slashes) (hpa : p.parts = init ++ [a])
    (hqb : q.parts = init ++ [b]) (ha : Apart p.text q.text) : Spares p.text q.text := by
  intro t t' content h
  obtain ⟨loc, hloc, hdir, rfl⟩ := write_eq_ok_iff.1 h
  have hpne : p.parts ≠ [] := by simp [hpa]
  have hqne : q.parts ≠ [] := by simp [hqb]
  have hstart : (p.text.toList.head? = some '/') = (q.text.toList.head? = some '/') := by
    rw [head?_text hp hpne, head?_text hq hqne, hslashes]
  have walked := walk_of_locate hloc
  have hput : (t.put loc content).locate p.text = .ok loc := locate_put hdir hloc
  have walked' := walk_of_locate hput
  simp only [components_text hp hpne, hpa, hstart] at walked walked'
  have located : (t.put loc content).locate q.text = t.locate q.text := by
    unfold locate
    rw [components_text hq hqne, hqb, walk_append_singleton walked b,
      walk_append_singleton walked' b, walk_singleton _ t]
  unfold standing
  rw [located]
  cases hy : t.locate q.text with
  | error fault => rfl
  | ok y =>
    have hne : y ≠ loc := fun he => ha t loc hloc (he ▸ hy)
    exact congrArg Except.ok (entry?_put_of_ne hne)

/-- Going up never leads to a place that is named. -/
theorem above_ne_append_singleton (loc : Location) {name : String} (h : name ≠ "..") :
    above loc ≠ loc ++ [name] := by
  unfold above
  intro he
  split at he
  · rename_i hnone
    rw [List.getLast?_eq_none_iff.1 hnone] at he
    simp at he
    exact h he.symm
  · exact h (by simpa using he.symm)
  · simp at he
  · have hlen := congrArg List.length he
    rw [List.length_dropLast, List.length_append, List.length_singleton] at hlen
    omega

/-! ### Names of files -/

/-- A directory above which there are directories only. -/
def Rooted (t : FileTree) (here : Location) : Prop :=
  ∃ reached : Location → Prop, reached here ∧
    ∀ loc, reached loc → t.entry? loc = some .directory ∧ reached (above loc)

theorem Rooted.up {here : Location} (h : t.Rooted here) : t.Rooted (above here) := by
  obtain ⟨reached, hhere, hup⟩ := h
  exact ⟨reached, (hup here hhere).2, hup⟩

theorem Rooted.entry {here : Location} (h : t.Rooted here) : t.entry? here = some .directory := by
  obtain ⟨reached, hhere, hup⟩ := h
  exact (hup here hhere).1

theorem Rooted.down {here : Location} {part : String} (h : t.Rooted here) (hdots : part ≠ "..")
    (hdir : t.entry? (here ++ [part]) = some .directory) : t.Rooted (here ++ [part]) := by
  obtain ⟨reached, hhere, hup⟩ := h
  refine ⟨fun loc => loc = here ++ [part] ∨ reached loc, Or.inl rfl, ?_⟩
  rintro loc (rfl | hloc)
  · refine ⟨hdir, ?_⟩
    unfold above
    split
    · simp_all
    · simp_all
    · exact Or.inl rfl
    · exact Or.inr (by simpa using hhere)
  · exact ⟨(hup loc hloc).1, Or.inr (hup loc hloc).2⟩

/-- Every path is walked from such a directory. -/
theorem rooted_start (t : FileTree) (absolute : Prop) [Decidable absolute] :
    t.Rooted (if absolute then ["/"] else []) := by
  split
  · refine ⟨fun loc => loc = ["/"], rfl, ?_⟩
    rintro _ rfl
    exact ⟨rfl, rfl⟩
  · refine ⟨fun loc => ∀ part ∈ loc, part = "..", by simp, fun loc hloc => ⟨?_, ?_⟩⟩
    · unfold entry?
      rw [if_pos (by simpa using Or.inr hloc)]
    · intro part hpart
      unfold above at hpart
      split at hpart
      · simpa using hpart
      · rcases List.mem_append.1 hpart with hpart | hpart
        · exact hloc part hpart
        · simpa using hpart
      · exact hloc part hpart
      · exact hloc part (List.dropLast_subset _ hpart)

/-- A way that ends by going up ends at a directory. -/
theorem entry?_of_walk_up {here x : Location} {init : List String} (hhere : t.Rooted here)
    (h : t.walk here (init ++ [".."]) = .ok x) : t.entry? x = some .directory := by
  induction init generalizing here with
  | nil =>
    obtain rfl : above here = x := by simpa [walk] using h
    exact hhere.up.entry
  | cons part init ih =>
    rw [List.cons_append] at h
    by_cases hdot : part = "."
    · subst hdot
      exact ih hhere (by simpa [walk] using h)
    · by_cases hdots : part = ".."
      · subst hdots
        exact ih hhere.up (by simpa [walk] using h)
      · obtain ⟨next, rest, hrest⟩ : ∃ next rest, init ++ [".."] = next :: rest :=
          List.exists_cons_of_ne_nil (by simp)
        rw [hrest, walk.eq_5 _ _ _ _ _ hdot hdots] at h
        split at h
        · cases h
        · split at h
          · rename_i hdir
            exact ih (hhere.down hdots hdir) (by rw [hrest]; exact h)
          · cases h
          · cases h

/-- A path without components asks for the directory that it starts from. -/
theorem components_text_nil {p : Path} (h : p.parts = []) : components p.text = ["."] := by
  unfold Path.text
  cases hs : p.slashes with
  | zero =>
    simp only [h, List.isEmpty_nil, decide_true, Bool.and_self, if_true]
    decide
  | succ n =>
    have htext : (String.ofList (List.replicate (n + 1) '/') ++ "/".intercalate []).toList
        = List.replicate (n + 1) '/' ++ [] := by simp
    have hlast : (List.replicate (n + 1) '/' ++ []).getLast? = some '/' := by
      simp [List.getLast?_replicate]
    simp only [h, List.isEmpty_nil, Nat.add_one_ne_zero, decide_false, Bool.false_and,
      Bool.false_eq_true, if_false]
    rw [components, Text.pieces, htext, if_pos hlast, splitOn_replicate_append]
    simp

/-- **A file stands only under a name**: the path to it does not end by going up, or nowhere. -/
theorem exists_name_of_standing {p : Path} (hp : p.Clean) (hdot : ∀ part ∈ p.parts, part ≠ ".")
    (h : t.standing p.text = .ok (some (.file content))) :
    ∃ name, p.name? = some name ∧ name ≠ "." ∧ name ≠ ".." := by
  unfold standing at h
  cases hx : t.locate p.text with
  | error fault => simp [hx, Except.map] at h
  | ok x =>
    have hfile : t.entry? x = some (.file content) := by simpa [hx, Except.map] using h
    have walked := walk_of_locate hx
    have hrooted := rooted_start t (p.text.toList.head? = some '/')
    rcases List.eq_nil_or_concat p.parts with hnil | ⟨init, name, hparts⟩
    · rw [components_text_nil hnil] at walked
      obtain rfl : _ = x := Except.ok.inj walked
      rw [hrooted.entry] at hfile
      cases hfile
    · rw [components_text hp (by simp [hparts]), hparts, List.concat_eq_append] at walked
      refine ⟨name, by simp [name?, hparts], hdot name (by simp [hparts]), ?_⟩
      rintro rfl
      rw [entry?_of_walk_up hrooted walked] at hfile
      cases hfile

/-- Where a path with a name leads. -/
theorem exists_append_of_locate {p : Path} {x : Location} {name : String} (hp : p.Clean)
    (hname : p.name? = some name) (hdot : name ≠ ".") (hdots : name ≠ "..")
    (hx : t.locate p.text = .ok x) : ∃ here, x = here ++ [name] := by
  obtain ⟨init, hparts⟩ := List.getLast?_eq_some_iff.1 hname
  have hx := eq_destination_of_locate hp (by simp [hparts]) hx
  rw [hparts, destination_append, destination, if_neg hdot, if_neg hdots] at hx
  exact ⟨_, hx⟩

/-- **Files with different names lie in different places.** -/
theorem apart_of_names {p q : Path} {a b : String} (hp : p.Clean) (hq : q.Clean)
    (ha : p.name? = some a ∧ a ≠ "." ∧ a ≠ "..") (hb : q.name? = some b ∧ b ≠ "." ∧ b ≠ "..")
    (hne : a ≠ b) : Apart p.text q.text := by
  intro t x hpx hqx
  obtain ⟨here, rfl⟩ := exists_append_of_locate hp ha.1 ha.2.1 ha.2.2 hpx
  obtain ⟨here', heq⟩ := exists_append_of_locate hq hb.1 hb.2.1 hb.2.2 hqx
  exact hne (by simpa using (List.append_inj' heq rfl).2)

end FileTree

namespace ManifestFiles

variable {path : String} {files : ManifestFiles}

/-- A lock file that is not named itself is beside its manifest. -/
theorem ofPaths_ok (h : ofPaths path none = .ok files) :
    (files.manifest.Clean ∧ files.lock.Clean ∧ files.manifest.slashes = files.lock.slashes) ∧
      ∃ init name, files.manifest.parts = init ++ [name] ∧
        files.lock.parts = init ++ [lockName] ∧ name ≠ "." := by
  have hclean : (Path.ofText path).Clean := Path.clean_ofText path
  have hdots : ∀ part ∈ (Path.ofText path).parts, part ≠ "." := fun _ => Path.ne_dot_of_mem_ofText
  unfold ofPaths at h
  generalize Path.ofText path = p at h hclean hdots
  cases hname : p.name? with
  | none => simp [hname] at h
  | some name =>
    obtain rfl : files = ⟨p, p.withName lockName⟩ := by simpa [hname, eq_comm] using h
    obtain ⟨init, hparts⟩ : ∃ init, p.parts = init ++ [name] := List.getLast?_eq_some_iff.1 hname
    refine ⟨⟨hclean, hclean.withName (by decide) (by decide), rfl⟩, init, name, hparts, ?_,
      hdots name (by simp [hparts])⟩
    simp [Path.withName, hparts]

/-- Paths that were read have clean components, and no dots among them. -/
theorem clean_of_ofPaths {lock : Option String} (h : ofPaths path lock = .ok files) :
    (files.manifest.Clean ∧ ∀ part ∈ files.manifest.parts, part ≠ ".") ∧
      files.lock.Clean ∧ ∀ part ∈ files.lock.parts, part ≠ "." := by
  have read (text : String) :
      (Path.ofText text).Clean ∧ ∀ part ∈ (Path.ofText text).parts, part ≠ "." :=
    ⟨Path.clean_ofText text, fun _ => Path.ne_dot_of_mem_ofText⟩
  have beside : ((Path.ofText path).withName lockName).Clean ∧
      ∀ part ∈ ((Path.ofText path).withName lockName).parts, part ≠ "." := by
    refine ⟨(read path).1.withName (by decide) (by decide), fun part hpart => ?_⟩
    rcases List.mem_append.1 hpart with hpart | hpart
    · exact (read path).2 part (List.dropLast_subset _ hpart)
    · obtain rfl := List.mem_singleton.1 hpart
      decide
  unfold ofPaths at h
  dsimp only at h
  split at h
  · split at h
    · obtain rfl := Except.ok.inj h
      exact ⟨read path, beside⟩
    · cases h
  · split at h
    · obtain rfl := Except.ok.inj h
      exact ⟨read path, beside⟩
    · cases h
  · obtain rfl := Except.ok.inj h
    exact ⟨read path, read _⟩

/-- **A lock file beside its manifest is another file, unless it is the manifest itself.** -/
theorem apart_of_ofPaths (h : ofPaths path none = .ok files) :
    files.manifest.text = files.lock.text ∨
      FileTree.Apart files.manifest.text files.lock.text := by
  obtain ⟨⟨hm, hl, hslashes⟩, init, name, hmparts, hlparts, hdot⟩ := ofPaths_ok h
  by_cases hsame : name = lockName
  · refine Or.inl ?_
    rw [Path.text, Path.text, hslashes, hmparts, hlparts, hsame]
  · refine Or.inr fun t x hmx hlx => ?_
    have hmx := FileTree.eq_destination_of_locate hm (by simp [hmparts]) hmx
    have hlx := FileTree.eq_destination_of_locate hl (by simp [hlparts]) hlx
    rw [hmparts, FileTree.destination_append, hslashes] at hmx
    rw [hlparts, FileTree.destination_append] at hlx
    generalize FileTree.destination (if files.lock.slashes ≠ 0 then ["/"] else []) init = here
      at hmx hlx
    have hlx : x = here ++ [lockName] := hlx
    rw [FileTree.destination, if_neg hdot] at hmx
    split at hmx
    · exact FileTree.above_ne_append_singleton here (by decide) (hmx.symm.trans hlx)
    · exact hsame (by simpa [FileTree.destination] using hmx.symm.trans hlx)

/-- Two files that can be written without a change to the other, or one file. -/
def Separate (files : ManifestFiles) : Prop :=
  files.manifest.text = files.lock.text ∨
    FileTree.Spares files.manifest.text files.lock.text ∧
      FileTree.Spares files.lock.text files.manifest.text

/-- **Neither file is changed when the other one is written.** -/
theorem separate_of_ofPaths (h : ofPaths path none = .ok files) : files.Separate := by
  obtain ⟨⟨hm, hl, hslashes⟩, init, name, hmparts, hlparts, -⟩ := ofPaths_ok h
  rcases apart_of_ofPaths h with hsame | hapart
  · exact Or.inl hsame
  · exact Or.inr ⟨FileTree.spares_of_siblings hm hl hslashes hmparts hlparts hapart,
      FileTree.spares_of_siblings hl hm hslashes.symm hlparts hmparts
        fun t x hlx hmx => hapart t x hmx hlx⟩

end ManifestFiles
end UpgradeAudit
