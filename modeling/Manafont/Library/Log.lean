/-!
# Logs

A log is a list that grows at its end.

* `Around p R`: what comes before each entry of the kind `p` and what follows it are as `R` says.
* `After p Q` and `Before p Q` say so of one of the two alone.

`Around.snoc` is the rule for one more entry, and `After.snoc` and `Before.snoc` are its cases.
-/

namespace Log

variable {α : Type} {p : α → Prop} {R R' : List α → List α → Prop} {Q Q' : List α → Prop}
  {log : List α} {x : α}

def Around (p : α → Prop) (R : List α → List α → Prop) (log : List α) : Prop :=
  ∀ before x after, log = before ++ x :: after → p x → R before after

def After (p : α → Prop) (Q : List α → Prop) (log : List α) : Prop :=
  Around p (fun _ after => Q after) log

def Before (p : α → Prop) (Q : List α → Prop) (log : List α) : Prop :=
  Around p (fun before _ => Q before) log

/-- An entry of a longer log is the last one or an entry of the log. -/
theorem snoc_eq_append_cons {before after : List α} {y : α}
    (h : log ++ [x] = before ++ y :: after) :
    (after = [] ∧ before = log ∧ y = x) ∨
      ∃ after', after = after' ++ [x] ∧ log = before ++ y :: after' := by
  rcases List.eq_nil_or_concat after with rfl | ⟨after', z, rfl⟩
  · obtain ⟨hlog, hx⟩ := List.append_inj' h rfl
    exact .inl ⟨rfl, hlog.symm, (List.cons.inj hx).1.symm⟩
  · rw [List.concat_eq_append] at h ⊢
    rw [← List.cons_append, ← List.append_assoc] at h
    obtain ⟨hlog, hx⟩ := List.append_inj' h rfl
    exact .inr ⟨after', by rw [(List.cons.inj hx).1], hlog⟩

theorem Around.nil : Around p R [] := by
  intro before x after h
  exact absurd h.symm (List.append_ne_nil_of_right_ne_nil _ (List.cons_ne_nil _ _))

theorem Around.of_forall_not (h : ∀ x ∈ log, ¬ p x) : Around p R log := by
  rintro before x after rfl hx
  exact absurd hx (h x (List.mem_append_right _ List.mem_cons_self))

/-- **One more entry** follows all those before it, and has them before it. -/
theorem Around.snoc (h : Around p R log)
    (hmore : ∀ before after, R before after → R' before (after ++ [x]))
    (hlast : p x → R' log []) : Around p R' (log ++ [x]) := by
  intro before y after hlog hy
  rcases snoc_eq_append_cons hlog with ⟨rfl, rfl, rfl⟩ | ⟨after', rfl, hold⟩
  · exact hlast hy
  · exact hmore before after' (h before y after' hold hy)

theorem After.snoc (h : After p Q log) (hmore : ∀ after, Q after → Q' (after ++ [x]))
    (hlast : p x → Q' []) : After p Q' (log ++ [x]) :=
  Around.snoc h (fun _ => hmore) hlast

theorem Before.snoc (h : Before p Q log) (hlast : p x → Q log) : Before p Q (log ++ [x]) :=
  Around.snoc h (fun _ _ hbefore => hbefore) hlast

theorem After.mono (h : After p Q log) (hQ : ∀ after, Q after → Q' after) : After p Q' log :=
  fun before x after hlog hx => hQ after (h before x after hlog hx)

end Log
