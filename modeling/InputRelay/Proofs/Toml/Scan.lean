/-
What a scan yields. `Scan.Yields p P` says that whatever `p` reads is as `P` says, in front of any text. Each way of
combining scans keeps it, so that a fact about everything the parser builds goes up from the smallest scans.
-/
import InputRelay.Toml.Scan

namespace InputRelay.Toml.Scan

variable {α β : Type} {p q : Scan α} {P : α → Prop} {Q : β → Prop}

/-- whatever a scan reads is as `P` says -/
def Yields (p : Scan α) (P : α → Prop) : Prop := ∀ cs a rest, p cs = some (a, rest) → P a

theorem yields_true (p : Scan α) : Yields p fun _ => True := fun _ _ _ _ => trivial

theorem Yields.pure {a : α} (h : P a) : Yields (Pure.pure a) P := by
  intro cs b rest hb
  cases hb
  exact h

theorem yields_failure (P : α → Prop) : Yields failure P := by
  intro cs a rest ha
  cases ha

theorem Yields.bind {f : α → Scan β} (h : Yields p P) (hf : ∀ a, P a → Yields (f a) Q) : Yields (p >>= f) Q := by
  intro cs b rest hb
  obtain ⟨⟨a, cs'⟩, ha, hb⟩ := Option.bind_eq_some_iff.1 hb
  exact hf a (h cs a cs' ha) cs' b rest hb

/-- a scan whose result does not matter -/
theorem Yields.after {f : α → Scan β} (hf : ∀ a, Yields (f a) Q) : Yields (p >>= f) Q :=
  (yields_true p).bind fun a _ => hf a

theorem Yields.map {f : α → β} (h : Yields p P) (hf : ∀ a, P a → Q (f a)) : Yields (f <$> p) Q := by
  intro cs b rest hb
  obtain ⟨⟨a, _⟩, ha, hb⟩ := Option.bind_eq_some_iff.1 hb
  cases hb
  exact hf a (h cs a _ ha)

theorem Yields.orElse (h : Yields p P) (h' : Yields q P) : Yields (p <|> q) P := by
  intro cs a rest ha
  have hor : (p cs).orElse (fun _ => q cs) = some (a, rest) := ha
  rw [Option.orElse_eq_or, Option.or_eq_some_iff] at hor
  rcases hor with ha | ⟨-, ha⟩
  · exact h cs a rest ha
  · exact h' cs a rest ha

theorem Yields.maybe (h : Yields p P) : Yields (Scan.maybe p) fun o => ∀ a ∈ o, P a := by
  intro cs o rest ho
  unfold Scan.maybe at ho
  split at ho
  · rename_i ha
    cases ho
    intro b hb
    cases hb
    exact h _ _ _ ha
  · cases ho
    intro b hb
    cases hb

theorem Yields.many (h : Yields p P) : Yields (Scan.many p) fun as => ∀ a ∈ as, P a := by
  intro cs
  fun_induction Scan.many p cs with
  | case1 cs hp =>
    intro as rest has
    cases has
    simp
  | case2 cs a rest' hp hshorter ih =>
    intro as rest has
    obtain ⟨⟨as, rest⟩, has, hcons⟩ := Option.map_eq_some_iff.1 has
    cases hcons
    exact List.forall_mem_cons.2 ⟨h cs a rest' hp, ih as rest has⟩
  | case3 cs a rest' hp hsame =>
    intro as rest has
    cases has
    simp

theorem Yields.separated (h : Yields p P) (separator : Scan β) :
    Yields (Scan.separated p separator) fun as => ∀ a ∈ as, P a := by
  refine h.bind ?_
  intro first hfirst
  have hothers : Yields (Scan.many (do let _ ← separator; p)) fun as => ∀ a ∈ as, P a :=
    (Yields.after fun _ => h).many
  refine hothers.bind ?_
  intro others hothers
  exact .pure (List.forall_mem_cons.2 ⟨hfirst, hothers⟩)

theorem Yields.whole? (h : Yields p P) {cs : List Char} {a : α} (ha : Scan.whole? p cs = some a) : P a := by
  unfold Scan.whole? at ha
  split at ha
  · rename_i hp
    cases ha
    exact h _ _ _ hp
  · cases ha

end InputRelay.Toml.Scan
