/-
# What actions leave behind

The equations by which actions run, and two ways to say what a run may do to the world.

* **Frames.**  A frame is a reflexive and transitive relation on worlds; an action is `Within` a
  frame when it never leaves it, however it ends.  Sequencing, handlers and loops stay within
  every frame that their parts stay within (`within_bind`, `within_attempt`,
  `within_mapFailure`, `within_foldlM`).  Reading files takes time and does nothing else
  (`within_readFile`).
* **Deeds.**  The events of a world in their order, log records apart.  Nothing is ever taken
  back: the deeds only grow, and `Frame.deeds p` says by which events.
-/
import UpgradeAudit.Host.Action

namespace UpgradeAudit

variable {α β : Type} {host : Host} {w : World}

/-! ## 1. Deeds -/

/-- Whether an event is a log record. -/
def Event.isLog : Event → Bool
  | .logged _ => true
  | _ => false

/-- The command that an event starts. -/
def Event.command? : Event → Option Command
  | .started c => some c
  | _ => none

namespace World

/-- What was done, in the order in which it was done. -/
def deeds (w : World) : List Event := w.history.filter fun e => ! e.isLog

/-- The world after a log record has been kept. -/
def logging (host : Host) (r : LogRecord) (w : World) : World :=
  World.record (.logged r) { w with files := host.keepRecord r w.files }

theorem deeds_record {e : Event} (h : e.isLog = false) (w : World) :
    (w.record e).deeds = w.deeds ++ [e] := by
  simp [deeds, record, history, h]

@[simp] theorem deeds_logging (r : LogRecord) : (w.logging host r).deeds = w.deeds := by
  simp [deeds, logging, record, history, Event.isLog]

@[simp] theorem started_logging (r : LogRecord) : (w.logging host r).started = w.started := by
  simp [started, logging, record]

@[simp] theorem files_logging (r : LogRecord) :
    (w.logging host r).files = host.keepRecord r w.files := rfl

@[simp] theorem files_record (e : Event) : (w.record e).files = w.files := rfl

/-- What was started can be told from what was done. -/
theorem started_eq (w : World) : w.started = (w.deeds.filterMap Event.command?).reverse := by
  have same : (fun e : Event => if (! e.isLog) = true then e.command? else none)
      = fun e => match e with | .started c => some c | _ => none := by
    funext e
    cases e <;> rfl
  rw [deeds, List.filterMap_filter, same, history, List.filterMap_reverse, List.reverse_reverse]
  rfl

theorem length_started {w' : World} {es : List Event} (h : w'.deeds = w.deeds ++ es) :
    w'.started.length = w.started.length + (es.filterMap Event.command?).length := by
  simp [started_eq, h, Nat.add_comm]

end World

/-- An element that is not on the left was met on the right. -/
theorem eq_append_of_not_mem_left {A B pre post : List α} {a : α}
    (h : pre ++ a :: post = A ++ B) (ha : a ∉ A) : ∃ r, pre = A ++ r ∧ B = r ++ a :: post := by
  rcases List.append_eq_append_iff.1 h with ⟨r, rfl, hr⟩ | ⟨r, rfl, hr⟩
  · cases r with
    | nil => exact ⟨[], by simp, hr.symm⟩
    | cons e r => exact absurd (by simp [(List.cons.inj hr).1]) ha
  · exact ⟨r, rfl, hr⟩

/-- An element that is not on the right was met on the left. -/
theorem eq_append_of_not_mem_right {A B pre post : List α} {a : α}
    (h : pre ++ a :: post = A ++ B) (ha : a ∉ B) : ∃ r, post = r ++ B ∧ A = pre ++ a :: r := by
  rcases List.append_eq_append_iff.1 h with ⟨r, rfl, hr⟩ | ⟨r, rfl, hr⟩
  · cases r with
    | nil =>
      have hmem : a ∈ [] ++ B := hr ▸ List.mem_cons_self
      exact absurd hmem ha
    | cons e r =>
      obtain ⟨rfl, hpost⟩ := List.cons.inj hr
      exact ⟨r, hpost, rfl⟩
  · exact absurd (by simp [hr]) ha

/-! ## 2. How actions run -/

namespace Action

@[simp] theorem fail_run (f : Failure) : (fail f : Action α) host w = (.error f, w) := rfl

@[simp] theorem failFor_run (c : Cause) :
    (failFor c : Action α) host w = (.error (.ofCause c), w) := rfl

@[simp] theorem attempt_run (x : Action α) :
    attempt x host w = (.ok (x host w).1, (x host w).2) := rfl

@[simp] theorem host_run : Action.host host w = (.ok host, w) := rfl

@[simp] theorem world_run : world host w = (.ok w, w) := rfl

@[simp] theorem change_run (f : World → World) : change f host w = (.ok (), f w) := rfl

@[simp] theorem record_run (e : Event) : record e host w = (.ok (), w.record e) := rfl

@[simp] theorem moment_run :
    moment host w = (.ok w.clock, { w with clock := w.clock + 1 }) := rfl

theorem room_run (host : Host) (w : World) :
    room host w = (.ok (host.nesting w.clock), { w with clock := w.clock + 1 }) := rfl

@[simp] theorem log_run (severity : Severity) (origin event : String)
    (details : List (String × Json)) :
    log severity origin event details host w
      = (.ok (), w.logging host ⟨severity, origin, event, details⟩) := rfl

@[simp] theorem ofExcept_run (r : Except Failure α) : ofExcept r host w = (r, w) := by
  cases r <;> rfl

@[simp] theorem ofCauses_run (r : Except Cause α) :
    ofCauses r host w = (r.mapError .ofCause, w) := by
  cases r <;> rfl

theorem ofCauses_ok {r : Except Cause α} {a : α} {w' : World}
    (h : ofCauses r host w = (.ok a, w')) : r = .ok a ∧ w = w' := by
  rw [ofCauses_run] at h
  cases r with
  | error c => cases h
  | ok b =>
    cases h
    exact ⟨rfl, rfl⟩

theorem mapFailure_run (replace : Failure → Failure) (x : Action α) (host : Host) (w : World) :
    mapFailure replace x host w = ((x host w).1.mapError replace, (x host w).2) := by
  unfold mapFailure
  rcases x host w with ⟨r | a, w'⟩ <;> rfl

/-- An action that succeeds is not touched by what is said about its failures. -/
theorem mapFailure_ok {replace : Failure → Failure} {x : Action α} {a : α} {w' : World}
    (h : mapFailure replace x host w = (.ok a, w')) : x host w = (.ok a, w') := by
  rw [mapFailure_run] at h
  rcases hx : x host w with ⟨e | b, v⟩
  · rw [hx] at h
    cases h
  · rw [hx] at h
    exact h

theorem mapFailure_error {replace : Failure → Failure} {x : Action α} {f : Failure} {w' : World}
    (h : mapFailure replace x host w = (.error f, w')) :
    ∃ e, x host w = (.error e, w') ∧ f = replace e := by
  rw [mapFailure_run] at h
  rcases hx : x host w with ⟨e | b, v⟩
  · rw [hx] at h
    cases h
    exact ⟨e, rfl, rfl⟩
  · rw [hx] at h
    cases h

theorem mapFailure_of_ok {x : Action α} {a : α} {w' : World} (h : x host w = (.ok a, w'))
    (replace : Failure → Failure) : mapFailure replace x host w = (.ok a, w') := by
  rw [mapFailure_run, h]
  rfl

/-- The second action goes on where the first one ended. -/
theorem bind_of_ok {x : Action α} {a : α} {w' : World} (h : x host w = (.ok a, w'))
    (f : α → Action β) : (x >>= f) host w = f a host w' := by
  simp only [bind_run, h]

/-- After a failure nothing else happens. -/
theorem bind_of_error {x : Action α} {e : Failure} {w' : World} (h : x host w = (.error e, w'))
    (f : α → Action β) : (x >>= f) host w = (.error e, w') := by
  simp only [bind_run, h]

/-- Sequences do not depend on how they are grouped. -/
theorem bind_assoc {γ : Type} (x : Action α) (f : α → Action β) (g : β → Action γ) :
    x >>= f >>= g = x >>= fun a => f a >>= g := by
  funext host w
  rcases h : x host w with ⟨e | a, w'⟩
  · rw [bind_of_error (bind_of_error h f), bind_of_error h]
  · rw [bind_of_ok h, bind_run, bind_of_ok h, bind_run]

/-- Two actions in sequence end as the second does, or as the first when it fails. -/
theorem bind_cases (host : Host) (x : Action α) (f : α → Action β) (w : World) :
    (∃ a w', x host w = (.ok a, w') ∧ (x >>= f) host w = f a host w') ∨
      ∃ e w', x host w = (.error e, w') ∧ (x >>= f) host w = (.error e, w') := by
  rcases h : x host w with ⟨e | a, w'⟩
  · exact Or.inr ⟨e, w', rfl, bind_of_error h f⟩
  · exact Or.inl ⟨a, w', rfl, bind_of_ok h f⟩

/-- A sequence succeeds when both of its parts do. -/
theorem bind_ok {x : Action α} {f : α → Action β} {b : β} {w' : World}
    (h : (x >>= f) host w = (.ok b, w')) :
    ∃ a v, x host w = (.ok a, v) ∧ f a host v = (.ok b, w') := by
  rcases bind_cases host x f w with ⟨a, v, hx, hb⟩ | ⟨e, v, hx, hb⟩
  · exact ⟨a, v, hx, hb.symm.trans h⟩
  · cases hb.symm.trans h

/-- A sequence fails when its first part does, or its second one after it. -/
theorem bind_error {x : Action α} {f : α → Action β} {e : Failure}
    (h : ((x >>= f) host w).1 = .error e) :
    (x host w).1 = .error e ∨ ∃ a v, x host w = (.ok a, v) ∧ (f a host v).1 = .error e := by
  rcases bind_cases host x f w with ⟨a, v, hx, hb⟩ | ⟨e', v, hx, hb⟩
  · rw [hb] at h
    exact Or.inr ⟨a, v, hx, h⟩
  · rw [hb] at h
    obtain rfl : e' = e := Except.error.inj h
    exact Or.inl (congrArg Prod.fst hx)

/-- An action whose values all have a property. -/
def Yields (host : Host) (P : α → Prop) (x : Action α) : Prop :=
  ∀ w a w', x host w = (.ok a, w') → P a

theorem yields_pure {P : α → Prop} {a : α} (h : P a) : Yields host P (pure a : Action α) := by
  rintro w b w' hb
  cases hb
  exact h

theorem yields_fail {P : α → Prop} (f : Failure) : Yields host P (fail f : Action α) :=
  fun _ _ _ h => nomatch h

/-- What is known of a value may be used by what goes on with it. -/
theorem yields_bind_of {Q : α → Prop} {P : β → Prop} {x : Action α} {f : α → Action β}
    (hx : Yields host Q x) (h : ∀ a, Q a → Yields host P (f a)) : Yields host P (x >>= f) := by
  intro w b w' hb
  obtain ⟨a, v, ha, hf⟩ := bind_ok hb
  exact h a (hx w a v ha) v b w' hf

theorem yields_bind {P : β → Prop} {x : Action α} {f : α → Action β}
    (h : ∀ a, Yields host P (f a)) : Yields host P (x >>= f) :=
  yields_bind_of (Q := fun _ => True) (fun _ _ _ _ => trivial) fun a _ => h a

theorem yields_host : Yields host (· = host) Action.host := by
  rintro w h w' hh
  exact (Except.ok.inj (congrArg Prod.fst hh)).symm

theorem yields_mapFailure {P : α → Prop} {replace : Failure → Failure} {x : Action α}
    (h : Yields host P x) : Yields host P (mapFailure replace x) :=
  fun w a w' ha => h w a w' (mapFailure_ok ha)

end Action

/-! ## 3. Frames -/

/-- A way in which the world may change, step after step. -/
structure Frame where
  rel : World → World → Prop
  refl : ∀ w, rel w w
  trans : ∀ {u v w}, rel u v → rel v w → rel u w

namespace Action

/-- An action that does nothing to the world outside a frame. -/
def Within (host : Host) (F : Frame) (x : Action α) : Prop := ∀ w, F.rel w (x host w).2

variable {F : Frame}

theorem Within.rel_of_eq {x : Action α} {r : Except Failure α} {w' : World}
    (h : Within host F x) (hx : x host w = (r, w')) : F.rel w w' := by
  have hw := h w
  rwa [hx] at hw

theorem within_pure (a : α) : Within host F (pure a : Action α) := fun w => F.refl w

theorem within_fail (f : Failure) : Within host F (fail f : Action α) := fun w => F.refl w

/-- Nothing is done after a failure. -/
theorem within_fail_bind (f : Failure) (g : α → Action β) : Within host F (fail f >>= g) :=
  fun w => F.refl w

theorem within_ofExcept (r : Except Failure α) : Within host F (ofExcept r) := by
  intro w
  rw [ofExcept_run]
  exact F.refl w

theorem within_ofCauses (r : Except Cause α) : Within host F (ofCauses r) := by
  intro w
  rw [ofCauses_run]
  exact F.refl w

theorem within_host : Within host F Action.host := fun w => F.refl w

theorem within_world : Within host F Action.world := fun w => F.refl w

/-- What is known of a value may be used by what goes on with it. -/
theorem within_bind_of {Q : α → Prop} {x : Action α} {f : α → Action β} (hx : Within host F x)
    (hq : Yields host Q x) (hf : ∀ a, Q a → Within host F (f a)) : Within host F (x >>= f) := by
  intro w
  have first := hx w
  rcases bind_cases host x f w with ⟨a, w', h, hb⟩ | ⟨e, w', h, hb⟩
  · rw [h] at first
    rw [hb]
    exact F.trans first (hf a (hq w a w' h) w')
  · rw [h] at first
    rw [hb]
    exact first

theorem within_bind {x : Action α} {f : α → Action β} (hx : Within host F x)
    (hf : ∀ a, Within host F (f a)) : Within host F (x >>= f) :=
  within_bind_of (Q := fun _ => True) hx (fun _ _ _ _ => trivial) fun a _ => hf a

theorem within_attempt {x : Action α} (hx : Within host F x) : Within host F (attempt x) := hx

theorem within_mapFailure {replace : Failure → Failure} {x : Action α} (hx : Within host F x) :
    Within host F (mapFailure replace x) := by
  intro w
  rw [mapFailure_run]
  exact hx w

theorem within_onFileError {cause : FileError → Cause} {x : Action α} (hx : Within host F x) :
    Within host F (x.onFileError cause) := within_mapFailure hx

theorem within_onCommandFailure {cause : String → Cause} {x : Action α}
    (hx : Within host F x) : Within host F (x.onCommandFailure cause) := within_mapFailure hx

theorem within_foldlM {f : β → α → Action β} (hf : ∀ b a, Within host F (f b a)) :
    ∀ (l : List α) (b : β), Within host F (l.foldlM f b)
  | [], b => within_pure b
  | a :: l, b => by
    rw [List.foldlM_cons]
    exact within_bind (hf b a) fun b => within_foldlM hf l b

/-- A wider frame admits what a narrower one does. -/
theorem Within.mono {G : Frame} {x : Action α} (h : Within host F x)
    (hFG : ∀ {u v}, F.rel u v → G.rel u v) : Within host G x := fun w => hFG (h w)

end Action

/-! ## 4. Work aside -/

/-- No file changes and nothing happens; time passes, and private directories come and go. -/
def Frame.aside : Frame where
  rel w w' := w'.files = w.files ∧ w'.events = w.events
  refl _ := ⟨rfl, rfl⟩
  trans h h' := ⟨h'.1.trans h.1, h'.2.trans h.2⟩

theorem Frame.aside.deeds_eq {w' : World} (h : Frame.aside.rel w w') : w'.deeds = w.deeds := by
  rw [World.deeds, World.deeds, World.history, World.history, h.2]

namespace Action

theorem Within.files_eq {x : Action α} (h : Within host .aside x) (w : World) :
    (x host w).2.files = w.files := (h w).1

theorem Within.deeds_eq {x : Action α} (h : Within host .aside x) (w : World) :
    (x host w).2.deeds = w.deeds := Frame.aside.deeds_eq (h w)

theorem within_moment : Within host .aside moment := fun _ => ⟨rfl, rfl⟩

theorem within_room : Within host .aside room := fun _ => ⟨rfl, rfl⟩

theorem within_checkName (path : String) : Within host .aside (checkName path) := by
  unfold checkName
  split
  · exact within_fail _
  · exact within_pure _

/-- **Reading a file changes nothing.** -/
theorem within_readFile (path : String) : Within host .aside (readFile path) := by
  refine within_bind (within_checkName path) fun _ => within_bind within_moment fun now => ?_
  refine within_bind within_host fun h => ?_
  split
  · exact within_fail _
  · refine within_bind within_world fun v => ?_
    split
    · exact within_pure _
    · exact within_fail _

theorem within_checkpoint : Within host .aside checkpoint := by
  refine within_bind within_moment fun now => within_bind within_host fun h => ?_
  split
  · exact within_fail _
  · exact within_pure _

theorem within_makeDirectory : Within host .aside makeDirectory := by
  refine within_bind within_moment fun now => within_bind within_host fun h => ?_
  split
  · exact within_fail _
  · exact fun _ => ⟨rfl, rfl⟩

theorem within_privateName (directory : Nat) (name : String) :
    Within host .aside (privateName directory name) :=
  within_bind within_host fun _ => within_pure _

theorem within_writePrivate (directory : Nat) (name : String) (content : Bytes) :
    Within host .aside (writePrivate directory name content) := by
  refine within_bind within_moment fun now => within_bind within_host fun h => ?_
  split
  · exact within_bind (within_privateName _ _) fun _ => within_fail _
  · exact fun _ => ⟨rfl, rfl⟩

theorem within_discardDirectory (directory : Nat) :
    Within host .aside (discardDirectory directory) := fun _ => ⟨rfl, rfl⟩

theorem within_removeDirectory (directory : Nat) :
    Within host .aside (removeDirectory directory) := by
  refine within_bind within_moment fun now => within_bind within_host fun h => ?_
  split
  · exact within_fail _
  · exact within_discardDirectory directory

/-- Writing a file puts contents in its place, the whole or a part, or does nothing. -/
theorem within_writeFile_of {F : Frame} {path : String} {content : Bytes}
    (haside : ∀ {u v}, Frame.aside.rel u v → F.rel u v)
    (hput : ∀ c, Within host F (putFile path c)) : Within host F (writeFile path content) := by
  refine within_bind ((within_checkName path).mono haside) fun _ =>
    within_bind (within_moment.mono haside) fun now => within_bind within_host fun h => ?_
  split
  · exact hput content
  · exact within_fail _
  · exact within_bind (hput _) fun _ => within_fail _

end Action

/-! ## 5. Adding deeds -/

/-- Nothing is done but what `p` admits. -/
def Frame.deeds (p : Event → Prop) : Frame where
  rel w w' := ∃ es, w'.deeds = w.deeds ++ es ∧ ∀ e ∈ es, p e
  refl w := ⟨[], by simp⟩
  trans := by
    rintro u v w ⟨es, hes, hp⟩ ⟨es', hes', hp'⟩
    refine ⟨es ++ es', by rw [hes', hes, List.append_assoc], fun e he => ?_⟩
    exact (List.mem_append.1 he).elim (hp e) (hp' e)

namespace Action

variable {p : Event → Prop}

theorem Within.deeds_of_aside {x : Action α} (h : Within host .aside x) :
    Within host (.deeds p) x := fun w => ⟨[], by simp [h.deeds_eq w]⟩

theorem within_log (severity : Severity) (origin event : String)
    (details : List (String × Json)) :
    Within host (.deeds p) (log severity origin event details) :=
  fun _ => ⟨[], by simp⟩

theorem within_record {e : Event} (h : e.isLog = false) (hp : p e) :
    Within host (.deeds p) (record e) :=
  fun w => ⟨[e], World.deeds_record h w, by simpa using hp⟩

theorem within_change {f : World → World} (h : ∀ w, (f w).events = w.events) :
    Within host (.deeds p) (change f) :=
  fun w => ⟨[], by simp [World.deeds, World.history, h w]⟩

theorem within_putFile (path : String) (content : Bytes) :
    Within host (.deeds p) (putFile path content) := by
  refine within_bind within_world fun v => ?_
  split
  · exact within_change fun w => rfl
  · exact within_fail _

end Action
end UpgradeAudit
