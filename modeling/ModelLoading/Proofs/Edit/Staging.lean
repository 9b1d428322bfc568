import ModelLoading.Proofs.Edit.Running

/-!
# Growing pipelines

A pipeline grows at its end only, and refuses a rule whose stage is over. So its rules are in the order of their
stages, whatever was asked of it and however much of that was refused (`inOrder_after`). Then the rules of a
stage stand together, and a run takes one stage after another (`run_eq_foldl`).
-/

namespace ModelLoading.Edit

variable {p q : Pipeline} {r : Rule} {rules added before : List Rule} {e : Error}

/-! ## 1. Refusals -/

/-- Why a rule is refused behind other rules: its stage precedes that of the last of them. -/
def Refuses (rules : List Rule) (r : Rule) (e : Error) : Prop :=
  ∃ last, rules.getLast? = some last ∧ r.stage < last.stage ∧ e = .stageOrder r.name r.stage last.stage

/-- None of several rules is refused behind the rules before it. -/
def Accepts (rules added : List Rule) : Prop :=
  ∀ before r after e, added = before ++ r :: after → ¬Refuses (rules ++ before) r e

theorem accepts_nil (rules : List Rule) : Accepts rules [] := by
  intro before r after e split
  simp at split

theorem accepts_cons : Accepts rules (r :: added) ↔
    (∀ e, ¬Refuses rules r e) ∧ Accepts (rules ++ [r]) added := by
  constructor
  · refine fun accepts => ⟨fun e refuses => accepts [] r added e rfl (by simpa using refuses), ?_⟩
    rintro before r' after e rfl refuses
    exact accepts (r :: before) r' after e rfl (by simpa using refuses)
  · rintro ⟨first, others⟩ before r' after e split refuses
    cases before with
    | nil =>
      obtain ⟨rfl, -⟩ := List.cons.inj split
      exact first e (by simpa using refuses)
    | cons x before =>
      obtain ⟨rfl, later⟩ := List.cons.inj split
      exact others before r' after e later (by simpa using refuses)

/-- Either all of several rules are accepted, or there is a first one that is refused. -/
theorem accepts_or_refuses (rules added : List Rule) : Accepts rules added ∨
    ∃ before r after e, added = before ++ r :: after ∧ Accepts rules before ∧ Refuses (rules ++ before) r e := by
  induction added generalizing rules with
  | nil => exact .inl (accepts_nil rules)
  | cons r added ih =>
    by_cases first : ∃ e, Refuses rules r e
    · obtain ⟨e, refuses⟩ := first
      exact .inr ⟨[], r, added, e, rfl, accepts_nil rules, by simpa using refuses⟩
    · have accepted : ∀ e, ¬Refuses rules r e := fun e refuses => first ⟨e, refuses⟩
      rcases ih (rules ++ [r]) with others | ⟨before, r', after, e, rfl, others, refuses⟩
      · exact .inl (accepts_cons.mpr ⟨accepted, others⟩)
      · exact .inr ⟨r :: before, r', after, e, rfl, accepts_cons.mpr ⟨accepted, others⟩,
          by simpa using refuses⟩

/-- Behind rules in order, a rule that is not refused keeps the order. -/
theorem inOrder_append_singleton (order : InOrder rules) (accepted : ∀ e, ¬Refuses rules r e) :
    InOrder (rules ++ [r]) := by
  refine List.pairwise_append.mpr ⟨order, List.pairwise_singleton _ _, ?_⟩
  simp only [List.mem_singleton, forall_eq]
  intro earlier member
  obtain ⟨last, ends⟩ := Option.ne_none_iff_exists'.mp
    (mt List.getLast?_eq_none_iff.mp (List.ne_nil_of_mem member))
  obtain ⟨front, rfl⟩ := List.getLast?_eq_some_iff.mp ends
  have notEarly : last.stage ≤ r.stage := Nat.not_lt.mp fun early => accepted _ ⟨last, ends, early, rfl⟩
  rcases List.mem_append.mp member with inFront | same
  · exact Nat.le_trans ((List.pairwise_append.mp order).2.2 earlier inFront last (by simp)) notEarly
  · rwa [List.mem_singleton.mp same]

namespace Pipeline

theorem push_of_accepted (accepted : ∀ e, ¬Refuses p.rules r e) : p.push r = .ok ⟨p.rules ++ [r]⟩ := by
  unfold push
  split
  · rename_i last ends
    exact if_neg fun early => accepted _ ⟨last, ends, early, rfl⟩
  · rfl

theorem push_of_refuses (refuses : Refuses p.rules r e) : p.push r = .error e := by
  obtain ⟨last, ends, early, rfl⟩ := refuses
  rw [push, ends]
  exact if_pos early

/-- Rules that are accepted are added, and then those behind them. -/
theorem extend_append (accepts : Accepts p.rules before) (rest : List Rule) :
    p.extend (before ++ rest) = extend ⟨p.rules ++ before⟩ rest := by
  induction before generalizing p with
  | nil => rw [List.append_nil, List.nil_append]
  | cons r before ih =>
    obtain ⟨first, others⟩ := accepts_cons.mp accepts
    rw [List.cons_append, extend, push_of_accepted first]
    exact (ih (p := ⟨p.rules ++ [r]⟩) others).trans (by rw [List.append_assoc, List.singleton_append])

theorem extend_of_accepts (accepts : Accepts p.rules added) : p.extend added = (⟨p.rules ++ added⟩, .ok ()) := by
  have all := extend_append accepts []
  rwa [List.append_nil, extend] at all

theorem extend_of_refuses (accepts : Accepts p.rules before) (refuses : Refuses (p.rules ++ before) r e)
    (rest : List Rule) : p.extend (before ++ r :: rest) = (⟨p.rules ++ before⟩, .error e) := by
  rw [extend_append accepts, extend, push_of_refuses refuses]

/-! ## 2. Requests -/

/-- What is asked of a pipeline while it grows. -/
inductive Request where
  | push (r : Rule)
  | extend (added : List Rule)

/-- What a pipeline becomes by a request, and how the request ends. A rule that is refused leaves the
pipeline as it is. -/
def answer (p : Pipeline) : Request → Pipeline × Except Error Unit
  | .push r =>
    match p.push r with
    | .ok longer => (longer, .ok ())
    | .error e => (p, .error e)
  | .extend added => p.extend added

/-- What a pipeline becomes by requests one after another, whichever of them are refused. -/
def after (p : Pipeline) (requests : List Request) : Pipeline :=
  requests.foldl (fun p request => (p.answer request).1) p

/-- A push adds its rule, unless it is refused. -/
theorem answer_push (p : Pipeline) (r : Rule) :
    ((∀ e, ¬Refuses p.rules r e) ∧ p.answer (.push r) = (⟨p.rules ++ [r]⟩, .ok ())) ∨
      ∃ e, Refuses p.rules r e ∧ p.answer (.push r) = (p, .error e) := by
  by_cases refused : ∃ e, Refuses p.rules r e
  · obtain ⟨e, refuses⟩ := refused
    exact .inr ⟨e, refuses, by rw [answer, push_of_refuses refuses]⟩
  · have accepted : ∀ e, ¬Refuses p.rules r e := fun e refuses => refused ⟨e, refuses⟩
    exact .inl ⟨accepted, by rw [answer, push_of_accepted accepted]⟩

/-- Of several rules, those before the first one that is refused are added. -/
theorem answer_extend (p : Pipeline) (added : List Rule) :
    (Accepts p.rules added ∧ p.answer (.extend added) = (⟨p.rules ++ added⟩, .ok ())) ∨
      ∃ before r after e, added = before ++ r :: after ∧ Accepts p.rules before ∧
        Refuses (p.rules ++ before) r e ∧ p.answer (.extend added) = (⟨p.rules ++ before⟩, .error e) := by
  rcases accepts_or_refuses p.rules added with accepts | ⟨before, r, after, e, rfl, accepts, refuses⟩
  · exact .inl ⟨accepts, extend_of_accepts accepts⟩
  · exact .inr ⟨before, r, after, e, rfl, accepts, refuses, extend_of_refuses accepts refuses after⟩

theorem answer_push_eq_error_iff : p.answer (.push r) = (q, .error e) ↔ Refuses p.rules r e ∧ q = p := by
  constructor
  · intro ends
    rcases p.answer_push r with ⟨-, added⟩ | ⟨e, refuses, refused⟩
    · cases added.symm.trans ends
    · cases refused.symm.trans ends
      exact ⟨refuses, rfl⟩
  · rintro ⟨refuses, rfl⟩
    rw [answer, push_of_refuses refuses]

theorem answer_push_eq_ok_iff :
    p.answer (.push r) = (q, .ok ()) ↔ (∀ e, ¬Refuses p.rules r e) ∧ q = ⟨p.rules ++ [r]⟩ := by
  constructor
  · intro ends
    rcases p.answer_push r with ⟨accepted, added⟩ | ⟨e, -, refused⟩
    · cases added.symm.trans ends
      exact ⟨accepted, rfl⟩
    · cases refused.symm.trans ends
  · rintro ⟨accepted, rfl⟩
    rw [answer, push_of_accepted accepted]

theorem answer_extend_eq_error_iff : p.answer (.extend added) = (q, .error e) ↔
    ∃ before r after, added = before ++ r :: after ∧ Accepts p.rules before ∧
      Refuses (p.rules ++ before) r e ∧ q = ⟨p.rules ++ before⟩ := by
  constructor
  · intro ends
    rcases p.answer_extend added with ⟨-, all⟩ | ⟨before, r, after, e, split, accepts, refuses, some⟩
    · cases all.symm.trans ends
    · cases some.symm.trans ends
      exact ⟨before, r, after, split, accepts, refuses, rfl⟩
  · rintro ⟨before, r, after, rfl, accepts, refuses, rfl⟩
    exact extend_of_refuses accepts refuses after

theorem answer_extend_eq_ok_iff :
    p.answer (.extend added) = (q, .ok ()) ↔ Accepts p.rules added ∧ q = ⟨p.rules ++ added⟩ := by
  constructor
  · intro ends
    rcases p.answer_extend added with ⟨accepts, all⟩ | ⟨before, r, after, e, -, -, -, some⟩
    · cases all.symm.trans ends
      exact ⟨accepts, rfl⟩
    · cases some.symm.trans ends
  · rintro ⟨accepts, rfl⟩
    exact extend_of_accepts accepts

theorem inOrder_of_accepts (order : InOrder rules) (accepts : Accepts rules added) : InOrder (rules ++ added) := by
  induction added generalizing rules with
  | nil => rwa [List.append_nil]
  | cons r added ih =>
    obtain ⟨first, others⟩ := accepts_cons.mp accepts
    rw [← List.singleton_append, ← List.append_assoc]
    exact ih (inOrder_append_singleton order first) others

/-- A request keeps the order of the rules. -/
theorem inOrder_answer (order : InOrder p.rules) (request : Request) : InOrder (p.answer request).1.rules := by
  cases request with
  | push r =>
    rcases p.answer_push r with ⟨accepted, added⟩ | ⟨e, -, refused⟩
    · rw [added]
      exact inOrder_append_singleton order accepted
    · rwa [refused]
  | extend added =>
    rcases p.answer_extend added with ⟨accepts, all⟩ | ⟨before, r, after, e, -, accepts, -, some⟩
    · rw [all]
      exact inOrder_of_accepts order accepts
    · rw [some]
      exact inOrder_of_accepts order accepts

/-- The rules are in order after any requests. -/
theorem inOrder_after (order : InOrder p.rules) (requests : List Request) : InOrder (p.after requests).rules := by
  induction requests generalizing p with
  | nil => exact order
  | cons request requests ih => exact ih (inOrder_answer order request)

/-! ## 3. Stages -/

/-- The stages are listed in their order. -/
theorem pairwise_stages : Stage.all.Pairwise (· < ·) := by decide

theorem mem_stages (stage : Stage) : stage ∈ Stage.all := by cases stage <;> decide

/-- Rules in order are those of one stage after another. -/
theorem flatMap_filter_stage (order : InOrder rules) {stages : List Stage}
    (sorted : stages.Pairwise (· < ·)) (listed : ∀ r ∈ rules, r.stage ∈ stages) :
    stages.flatMap (fun stage => rules.filter (·.stage = stage)) = rules := by
  induction rules with
  | nil => simp
  | cons r rules ih =>
    obtain ⟨later, order⟩ := List.pairwise_cons.mp order
    obtain ⟨own, listed⟩ := List.forall_mem_cons.mp listed
    have rest := ih order listed
    obtain ⟨early, late, rfl⟩ := List.append_of_mem own
    obtain ⟨-, sortedLate, cross⟩ := List.pairwise_append.mp sorted
    have earlier : ∀ stage ∈ early, stage < r.stage := fun stage member => cross stage member _ List.mem_cons_self
    have none : early.flatMap (fun stage => rules.filter (·.stage = stage)) = [] := by
      refine List.flatMap_eq_nil_iff.mpr fun stage member => List.filter_eq_nil_iff.mpr fun r' inside => ?_
      rw [decide_eq_true_eq]
      rintro rfl
      exact Nat.not_lt.mpr (later r' inside) (earlier _ member)
    -- only the filter for its own stage sees the first rule
    have other : ∀ stage, r.stage ≠ stage →
        (r :: rules).filter (·.stage = stage) = rules.filter (·.stage = stage) :=
      fun stage ne => List.filter_cons_of_neg (by simpa using ne)
    have inEarly : ∀ stage ∈ early, r.stage ≠ stage := fun stage member same =>
      Nat.lt_irrefl _ (same ▸ earlier stage member)
    have inLate : ∀ stage ∈ late, r.stage ≠ stage := fun stage member same =>
      Nat.lt_irrefl _ (same ▸ (List.pairwise_cons.mp sortedLate).1 stage member)
    rw [List.flatMap_append, none, List.nil_append, List.flatMap_cons] at rest
    rw [List.flatMap_append, List.flatMap_congr fun stage member => other stage (inEarly stage member), none,
      List.nil_append, List.flatMap_cons, List.filter_cons_of_pos (by simp), List.cons_append,
      List.flatMap_congr fun stage member => other stage (inLate stage member), rest]

/-- A run of rules in order makes the changes of one stage after another. -/
theorem run_eq_foldl (order : InOrder p.rules) (s : List Char) :
    p.run s =
      Stage.all.foldl (fun s stage => (p.ofStage stage).foldl (fun s r => (r.change.apply s).1) s) s := by
  have whole := flatMap_filter_stage order pairwise_stages fun r _ => mem_stages r.stage
  rw [run, ← whole, List.foldl_flatMap]
  rfl

/-! ## 4. Growing -/

/-- **A pipeline keeps its stages apart, whatever is asked of it.** After any requests, refused or not, its rules
are in the order of their stages. A push is then refused exactly if the stage of its rule precedes that of the
last rule, and a refused push changes nothing; of several rules, those before the first one that is refused in
that sense are added, and nothing behind it. So a run makes the changes of one stage after another, and those of
each stage in order. -/
theorem pipeline_runs_stage_by_stage (requests : List Request) :
    let p := after {} requests
    InOrder p.rules ∧
    (∀ r q e, p.answer (.push r) = (q, .error e) ↔ Refuses p.rules r e ∧ q = p) ∧
    (∀ r q, p.answer (.push r) = (q, .ok ()) ↔ (∀ e, ¬Refuses p.rules r e) ∧ q = ⟨p.rules ++ [r]⟩) ∧
    (∀ added q e, p.answer (.extend added) = (q, .error e) ↔
      ∃ before r after, added = before ++ r :: after ∧ Accepts p.rules before ∧
        Refuses (p.rules ++ before) r e ∧ q = ⟨p.rules ++ before⟩) ∧
    (∀ added q, p.answer (.extend added) = (q, .ok ()) ↔ Accepts p.rules added ∧ q = ⟨p.rules ++ added⟩) ∧
    ∀ s, p.run s =
      Stage.all.foldl (fun s stage => (p.ofStage stage).foldl (fun s r => (r.change.apply s).1) s) s := by
  intro p
  have order : InOrder p.rules := inOrder_after List.Pairwise.nil requests
  exact ⟨order, fun _ _ _ => answer_push_eq_error_iff, fun _ _ => answer_push_eq_ok_iff,
    fun _ _ _ => answer_extend_eq_error_iff, fun _ _ => answer_extend_eq_ok_iff, run_eq_foldl order⟩

/-- What stands behind a refused rule is lost with it, and does not come back. -/
example :
    let cast := Rule.literal .casts "cast" "a" "b"
    let header := Rule.literal .header "header" "c" "d"
    (after {} [.extend [cast, header, cast], .push header, .push cast]).rules = [cast, cast] := by decide

end Pipeline

end ModelLoading.Edit
