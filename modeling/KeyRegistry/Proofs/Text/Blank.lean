import KeyRegistry.Text.Blank

/-!
# White space around a text

A text is trimmed to its part that neither starts nor ends with white space and has
nothing but white space around it.
-/

namespace KeyRegistry
namespace Text

def AreBlank (cs : List Char) : Prop :=
  forall c, c ∈ cs -> isBlank c = true

def StartsFull (cs : List Char) : Prop :=
  forall c, cs.head? = some c -> isBlank c = false

/-- Whether `core` is what is left of a text without the white space around it. -/
def IsTrimmed (cs core : List Char) : Prop :=
  ∃ before after, cs = before ++ core ++ after ∧ AreBlank before ∧ AreBlank after ∧
    StartsFull core ∧ StartsFull core.reverse

variable {cs core before after : List Char}

theorem startsFull_of_forall (h : forall c, c ∈ cs -> isBlank c = false) : StartsFull cs :=
  fun c hc => h c (List.mem_of_head? hc)

theorem StartsFull.left (h : StartsFull (core ++ after)) : StartsFull core := by
  cases core with
  | nil => exact fun _ hc => nomatch hc
  | cons c core => exact h

theorem StartsFull.append (h : StartsFull core) (hfull : core ≠ []) :
    StartsFull (core ++ after) := by
  cases core with
  | nil => exact absurd rfl hfull
  | cons c core => exact h

theorem trimLeft_append (hbefore : AreBlank before) (h : StartsFull cs) :
    trimLeft (before ++ cs) = cs := by
  unfold trimLeft
  rw [List.dropWhile_append_of_pos hbefore]
  cases cs with
  | nil => rfl
  | cons c cs =>
      apply List.dropWhile_cons_of_neg
      rw [h c rfl]
      exact Bool.false_ne_true

theorem exists_trimLeft (cs : List Char) :
    ∃ before, cs = before ++ trimLeft cs ∧ AreBlank before ∧ StartsFull (trimLeft cs) := by
  refine ⟨cs.takeWhile isBlank, List.takeWhile_append_dropWhile.symm, ?_, ?_⟩
  · intro c hc
    exact List.all_eq_true.mp List.all_takeWhile c hc
  · intro c hc
    have hhead := List.head?_dropWhile_not isBlank cs
    unfold trimLeft at hc
    rw [hc] at hhead
    simpa using hhead

theorem trimLeft_of_blank (h : AreBlank cs) : trimLeft cs = [] := by
  have hnil : StartsFull [] := fun _ hc => nomatch hc
  have htrim := trimLeft_append h hnil
  rwa [List.append_nil] at htrim

theorem isTrimmed_trim (cs : List Char) : IsTrimmed cs (trim cs) := by
  rcases exists_trimLeft cs with ⟨before, hcs, hbefore, hstart⟩
  rcases exists_trimLeft (trimLeft cs).reverse with ⟨after, hreverse, hafter, hend⟩
  have hleft : trimLeft cs = trim cs ++ after.reverse := by
    rw [← List.reverse_reverse (trimLeft cs), hreverse, List.reverse_append]
    rfl
  rw [hleft] at hstart
  refine ⟨before, after.reverse, ?_, hbefore, ?_, hstart.left, ?_⟩
  · rw [List.append_assoc, ← hleft]
    exact hcs
  · intro c hc
    exact hafter c (List.mem_reverse.mp hc)
  · rw [trim, List.reverse_reverse]
    exact hend

theorem trim_of_isTrimmed (h : IsTrimmed cs core) : trim cs = core := by
  rcases h with ⟨before, after, hcs, hbefore, hafter, hstart, hend⟩
  have hreversed : AreBlank after.reverse := fun c hc => hafter c (List.mem_reverse.mp hc)
  by_cases hempty : core = []
  · -- The text is blank as a whole.
    have hblank : AreBlank cs := by
      intro c hc
      rw [hcs, hempty, List.append_nil] at hc
      rcases List.mem_append.mp hc with hc | hc
      · exact hbefore c hc
      · exact hafter c hc
    rw [trim, trimLeft_of_blank hblank, hempty]
    rfl
  · have hleft : trimLeft cs = core ++ after := by
      rw [hcs, List.append_assoc]
      exact trimLeft_append hbefore (hstart.append hempty)
    rw [trim, hleft, List.reverse_append, trimLeft_append hreversed hend, List.reverse_reverse]

/-- The white space that ends a line is all that is removed from a line without any. -/
theorem trim_line (h : forall c, c ∈ cs -> isBlank c = false) : trim (cs ++ ['\n']) = cs := by
  apply trim_of_isTrimmed
  refine ⟨[], ['\n'], rfl, fun _ hc => (nomatch hc), ?_, startsFull_of_forall h, ?_⟩
  · intro c hc
    rw [List.mem_singleton.mp hc]
    decide
  · exact startsFull_of_forall fun c hc => h c (List.mem_reverse.mp hc)

end Text
end KeyRegistry
