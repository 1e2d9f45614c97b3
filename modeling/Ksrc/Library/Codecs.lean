import Ksrc.Library.ByteStream

/-!
# Writers and the readers of what they write

A writer carries a value to a reader if it appends a string of bytes of which the reader makes the
value, whatever follows. Sections that are written and read in the same order compose.
-/
namespace Ksrc.Library

universe u

variable {ε : Type} {full : ε} {v w : ByteWriter ε}

/-- What the writer appends is what the reader makes the value of. -/
def Carries {α : Type u} (full : ε) (w : ByteWriter ε) (r : ByteReader ε α) (a : α) : Prop :=
  ∃ bytes, ByteWriter.Emits full w bytes ∧ ByteReader.Takes r bytes a

section Rows

variable {α β : Type u} {x : ByteReader ε α}

theorem several_zero_bind (f : List α → ByteReader ε β) : ByteReader.several x 0 >>= f = f [] := rfl

/-- A row of values, one value after the other. -/
theorem several_succ_bind {n : Nat} (f : List α → ByteReader ε β) :
    ByteReader.several x (n + 1) >>= f =
      x >>= fun a => ByteReader.several x n >>= fun rest => f (a :: rest) := by
  change ByteReader.andThen x _ >>= f = _
  change (x >>= fun a => ByteReader.several x n >>= fun rest => Pure.pure (a :: rest)) >>= f = _
  rw [ByteReader.bind_assoc]
  refine congrArg (x >>= ·) (funext fun a => ?_)
  rw [ByteReader.bind_assoc]
  rfl

end Rows

/-- A sequence that begins with a sequence is a longer one. -/
theorem seq_seq (ws vs : List (ByteWriter ε)) :
    ByteWriter.seq (ByteWriter.seq ws :: vs) = ByteWriter.seq (ws ++ vs) := by
  induction ws with
  | nil => rfl
  | cons w ws ih =>
    funext b
    rw [List.cons_append, ByteWriter.seq, ByteWriter.seq, ByteWriter.seq, ← ih]
    unfold ByteWriter.andThen
    cases w b with
    | error e => rfl
    | ok b => rfl

/-- What a writer appends is determined by the writer. -/
theorem emits_unique {bs cs : List Byte} (one : ByteWriter.Emits full w bs) (other : ByteWriter.Emits full w cs) :
    bs = cs := by
  have here := one { data := [], room := bs.length + cs.length }
  have there := other { data := [], room := bs.length + cs.length }
  rw [if_neg (by simp)] at here there
  rw [here] at there
  simp only [Except.ok.injEq, Buffer.mk.injEq, List.nil_append] at there
  exact there.1

theorem each_map {β γ : Type} (w : γ → ByteWriter ε) (f : β → γ) (list : List β) :
    ByteWriter.each w (list.map f) = ByteWriter.each (fun a => w (f a)) list := by
  induction list with
  | nil => rfl
  | cons a list ih => rw [List.map_cons, ByteWriter.each, ByteWriter.each, ih]

namespace Carries

variable {α β σ : Type u} {γ : Type} {r : ByteReader ε α} {f : α → ByteReader ε β} {a : α} {b : β}

theorem put {bytes : List Byte} (takes : ByteReader.Takes r bytes a) :
    Carries full (ByteWriter.put full bytes) r a :=
  ⟨bytes, ByteWriter.emits_put, takes⟩

theorem pure (a : α) : Carries full ByteWriter.skip (Pure.pure a : ByteReader ε α) a :=
  ⟨[], ByteWriter.emits_skip, fun _ => rfl⟩

/-- One section after the other. -/
theorem andThen (first : Carries full v r a) (second : Carries full w (f a) b) :
    Carries full (ByteWriter.andThen v w) (r >>= f) b := by
  obtain ⟨bytes, emits, takes⟩ := first
  obtain ⟨more, emitsMore, takesMore⟩ := second
  refine ⟨bytes ++ more, emits.andThen emitsMore, fun rest => ?_⟩
  rw [List.append_assoc]
  exact ByteReader.bind_ok.mpr ⟨a, _, takes (more ++ rest), takesMore rest⟩

/-- The head of a sequence of writers. -/
theorem cons {ws : List (ByteWriter ε)} (first : Carries full w r a)
    (rest : Carries full (ByteWriter.seq ws) (f a) b) :
    Carries full (ByteWriter.seq (w :: ws)) (r >>= f) b :=
  first.andThen rest

/-- The last of a sequence of writers. -/
theorem last (only : Carries full w r a) : Carries full (ByteWriter.seq [w]) r a := by
  obtain ⟨bytes, emits, takes⟩ := only
  refine ⟨bytes ++ [], emits.andThen ByteWriter.emits_skip, ?_⟩
  rw [List.append_nil]
  exact takes

/-- A sequence that begins with a sequence. -/
theorem nested {ws vs : List (ByteWriter ε)} (flat : Carries full (ByteWriter.seq (ws ++ vs)) r a) :
    Carries full (ByteWriter.seq (ByteWriter.seq ws :: vs)) r a := by
  rw [seq_seq]
  exact flat

/-- The first two of a sequence of writers, which one section of the reader takes. -/
theorem two {u u' : ByteWriter ε} {ws : List (ByteWriter ε)} (first : Carries full (ByteWriter.seq [u, u']) r a)
    (rest : Carries full (ByteWriter.seq ws) (f a) b) :
    Carries full (ByteWriter.seq (u :: u' :: ws)) (r >>= f) b := by
  have both := first.cons rest
  rw [seq_seq] at both
  exact both

/-- A check of the reader that holds. -/
theorem require {δ : Type} {e : ε} {p : Prop} [Decidable p] {f : Unit → ByteReader ε δ} {d : δ}
    (holds : p) (rest : Carries full w (f ()) d) :
    Carries full w (ByteReader.require e p >>= f) d := by
  obtain ⟨bytes, emits, takes⟩ := rest
  exact ⟨bytes, emits, fun rest =>
    ByteReader.bind_ok.mpr ⟨(), bytes ++ rest, ByteReader.require_ok.mpr ⟨holds, rfl⟩, takes rest⟩⟩

/-- A result that is at hand. -/
theorem lift {x : Except ε α} (ok : x = .ok a) (rest : Carries full w (f a) b) :
    Carries full w (ByteReader.lift x >>= f) b := by
  obtain ⟨bytes, emits, takes⟩ := rest
  exact ⟨bytes, emits, fun rest =>
    ByteReader.bind_ok.mpr ⟨a, bytes ++ rest, ByteReader.lift_ok.mpr ⟨ok, rfl⟩, takes rest⟩⟩

/-- A result that is at hand, at the end. -/
theorem lifted {x : Except ε α} (ok : x = .ok a) : Carries full ByteWriter.skip (ByteReader.lift x) a :=
  ⟨[], ByteWriter.emits_skip, fun _ => ByteReader.lift_ok.mpr ⟨ok, rfl⟩⟩

/-- The result in another form. -/
theorem map {g : α → β} (carried : Carries full w r a) : Carries full w (r >>= fun a => Pure.pure (g a)) (g a) := by
  obtain ⟨bytes, emits, takes⟩ := carried
  exact ⟨bytes, emits, fun rest =>
    ByteReader.bind_ok.mpr ⟨a, rest, takes rest, ByteReader.pure_ok.mpr ⟨rfl, rfl⟩⟩⟩

/-- Values in a row, each carried to one it is related to. -/
theorem several {rel : γ → α → Prop} {w : γ → ByteWriter ε} {values : List γ}
    (each : ∀ c ∈ values, ∃ a, rel c a ∧ Carries full (w c) r a) :
    ∃ results, List.Forall₂ rel values results ∧
      Carries full (ByteWriter.each w values) (ByteReader.several r values.length) results := by
  induction values with
  | nil => exact ⟨[], .nil, pure []⟩
  | cons c rest ih =>
    obtain ⟨a, related, first⟩ := each c List.mem_cons_self
    obtain ⟨results, all, more⟩ := ih fun c member => each c (List.mem_cons_of_mem _ member)
    exact ⟨a :: results, .cons related all, first.andThen (more.map (g := fun rest => a :: rest))⟩

/-- Values in a row, each carried to itself. -/
theorem row {w : α → ByteWriter ε} {values : List α} (each : ∀ a ∈ values, Carries full (w a) r a) :
    Carries full (ByteWriter.each w values) (ByteReader.several r values.length) values := by
  induction values with
  | nil => exact pure []
  | cons a rest ih =>
    have more := ih fun a member => each a (List.mem_cons_of_mem _ member)
    exact (each a List.mem_cons_self).andThen (more.map (g := fun rest => a :: rest))

end Carries

section Rounds

variable {α β σ : Type u} {x : ByteReader ε α} {next : σ → α → Except ε σ}

theorem pure_bind (a : α) (f : α → ByteReader ε β) : (Pure.pure a : ByteReader ε α) >>= f = f a := rfl

/-- A loop whose rounds read a value and go on from the state with it. -/
def rounds (x : ByteReader ε α) (next : σ → α → Except ε σ) : Nat → σ → ByteReader ε σ :=
  ByteReader.times fun s => x >>= fun a => ByteReader.lift (next s a)

/-- The loop goes through the values in the row. -/
theorem rounds_several {n : Nat} {s s' : σ} {bytes rest : List Byte}
    (done : rounds x next n s bytes = .ok (s', rest)) :
    ∃ values, ByteReader.several x n bytes = .ok (values, rest) ∧ values.foldlM next s = .ok s' := by
  have start : ([] : List α).foldlM next s = .ok s := rfl
  obtain ⟨values, read, folded⟩ := ByteReader.times_several
    (fun s' (values : List α) => values.foldlM next s = .ok s')
    (fun mid bytes after rest before folded once => by
      obtain ⟨a, _, read, lifted⟩ := ByteReader.bind_ok.mp once
      obtain ⟨made, rfl⟩ := ByteReader.lift_ok.mp lifted
      refine ⟨a, read, ?_⟩
      rw [List.foldlM_append, folded]
      change List.foldlM next mid [a] = .ok after
      rw [List.foldlM_cons, made]
      rfl) start done
  exact ⟨values, read, folded⟩

/-- What each step of a fold preserves. -/
theorem foldlM_preserves {f : σ → α → Except ε σ} (inv : σ → Prop)
    (step : ∀ s a s', inv s → f s a = .ok s' → inv s') {values : List α} {s s' : σ} (start : inv s)
    (folded : values.foldlM f s = .ok s') : inv s' := by
  induction values generalizing s with
  | nil =>
    cases folded
    exact start
  | cons a values ih =>
    rw [List.foldlM_cons, exceptBind_ok] at folded
    obtain ⟨mid, once, more⟩ := folded
    exact ih (step s a mid start once) more

/-- What the loop makes of bytes that are taken for values in a row. -/
theorem rounds_takes {γ : Type} {bytes : γ → List Byte} {value : γ → α} {values : List γ}
    (each : ∀ c ∈ values, ByteReader.Takes x (bytes c) (value c)) (s : σ) (rest : List Byte) :
    rounds x next values.length s (values.flatMap bytes ++ rest) =
      ((values.map value).foldlM next s).map fun s' => (s', rest) := by
  induction values generalizing s with
  | nil => rfl
  | cons c values ih =>
    have first := each c List.mem_cons_self (values.flatMap bytes ++ rest)
    have later := fun s => ih (fun c member => each c (List.mem_cons_of_mem _ member)) s
    rw [List.flatMap_cons, List.append_assoc, List.map_cons, List.foldlM_cons]
    unfold rounds at later ⊢
    change ByteReader.andThen (ByteReader.andThen x _) _ _ = _
    simp only [ByteReader.andThen, first, ByteReader.lift]
    cases next s (value c) with
    | error e => rfl
    | ok mid => exact later mid

/-- A loop whose rounds each add one to what satisfies an invariant. -/
theorem times_counted (inv : σ → Prop) (size : σ → Nat) {f : σ → ByteReader ε σ} {n : Nat} {s s' : σ}
    {bytes rest : List Byte}
    (step : ∀ s bytes s' rest, inv s → f s bytes = .ok (s', rest) → inv s' ∧ size s' = size s + 1)
    (start : inv s) (done : ByteReader.times f n s bytes = .ok (s', rest)) :
    inv s' ∧ size s' = size s + n := by
  induction n generalizing s bytes with
  | zero =>
    obtain ⟨rfl, -⟩ := ByteReader.ret_ok.mp done
    exact ⟨start, rfl⟩
  | succ n ih =>
    obtain ⟨mid, _, once, more⟩ := ByteReader.andThen_ok.mp done
    obtain ⟨kept, added⟩ := step s bytes mid _ start once
    obtain ⟨last, total⟩ := ih kept more
    exact ⟨last, by omega⟩

/-- A loop whose rounds each put what they read at the end of a list. -/
theorem Carries.appends {w : α → ByteWriter ε} {round : List α → ByteReader ε (List α)} {before values : List α}
    (each : ∀ front a back, before ++ values = front ++ a :: back →
      Carries full (w a) (round front) (front ++ [a])) :
    Carries full (ByteWriter.each w values) (ByteReader.times round values.length before) (before ++ values) := by
  induction values generalizing before with
  | nil =>
    rw [List.append_nil]
    exact .pure before
  | cons a values ih =>
    have whole : before ++ a :: values = (before ++ [a]) ++ values := List.append_cons before a values
    rw [whole]
    refine (each before a values rfl).andThen (ih fun front b back split => ?_)
    exact each front b back (whole.trans split)

/-- A loop whose rounds go through the results that the values are related to. -/
theorem Carries.times {γ : Type} {rel : γ → α → Prop} {w : γ → ByteWriter ε} {round : σ → ByteReader ε σ}
    {values : List γ} {results : List α} {s s' : σ} (related : List.Forall₂ rel values results)
    (each : ∀ s c a s', rel c a → next s a = .ok s' → Carries full (w c) (round s) s')
    (run : results.foldlM next s = .ok s') :
    Carries full (ByteWriter.each w values) (ByteReader.times round values.length s) s' := by
  induction related generalizing s with
  | nil =>
    cases run
    exact .pure _
  | cons first _ ih =>
    rw [List.foldlM_cons, exceptBind_ok] at run
    obtain ⟨mid, once, more⟩ := run
    exact (each s _ _ mid first once).andThen (ih more)

theorem Carries.rounds {γ : Type} {w : γ → ByteWriter ε} {values : List γ} {results : List α} {s s' : σ}
    (each : List.Forall₂ (fun c a => Carries full (w c) x a) values results)
    (run : results.foldlM next s = .ok s') :
    Carries full (ByteWriter.each w values) (rounds x next values.length s) s' := by
  refine Carries.times each (fun s c a s' carried made => ?_) run
  obtain ⟨bytes, emits, takes⟩ := carried
  exact ⟨bytes, emits, fun rest =>
    ByteReader.bind_ok.mpr ⟨a, rest, takes rest, ByteReader.lift_ok.mpr ⟨made, rfl⟩⟩⟩

end Rounds

end Ksrc.Library
