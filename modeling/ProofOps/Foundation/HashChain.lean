import Mathlib.Data.List.Induction

/-!
# Hash chains

A list of blocks in which each block links to the digest of the block before it.
When the digest is injective on the blocks, the last digest and the length determine
the whole chain, so a chain under a known tip cannot be edited.
-/

namespace ProofOps.Foundation.HashChain

universe u v

variable {β : Type u} {η : Type v} {digest : β → η} {link : β → Option η}

/-- The hash at the end of a chain. -/
def tip (digest : β → η) (start : Option η) : List β → Option η
  | [] => start
  | block :: blocks => tip digest (some (digest block)) blocks

def Linked (digest : β → η) (link : β → Option η) (start : Option η) : List β → Prop
  | [] => True
  | block :: blocks => link block = start ∧ Linked digest link (some (digest block)) blocks

/-- The end of a longer chain. -/
theorem tip_append_singleton (start : Option η) (blocks : List β) (block : β) :
    tip digest start (blocks ++ [block]) = some (digest block) := by
  induction blocks generalizing start with
  | nil => rfl
  | cons first rest ih => exact ih _

theorem linked_append_singleton {start : Option η} {blocks : List β} {block : β} :
    Linked digest link start (blocks ++ [block]) ↔
      Linked digest link start blocks ∧ link block = tip digest start blocks := by
  induction blocks generalizing start with
  | nil => exact ⟨fun h => ⟨trivial, h.1⟩, fun h => ⟨h.2, trivial⟩⟩
  | cons first rest ih =>
    rw [List.cons_append]
    unfold Linked
    rw [ih, and_assoc]
    rfl

theorem eq_of_tip_eq {start : Option η} {first second : List β}
    (hinj : ∀ block ∈ first, ∀ other ∈ second, digest block = digest other → block = other)
    (hfirst : Linked digest link start first) (hsecond : Linked digest link start second)
    (hlength : first.length = second.length)
    (htip : tip digest start first = tip digest start second) : first = second := by
  induction first using List.reverseRecOn generalizing second with
  | nil => exact (List.length_eq_zero_iff.mp hlength.symm).symm
  | append_singleton blocks block ih =>
    cases second using List.reverseRecOn with
    | nil => simp at hlength
    | append_singleton others other =>
      -- The tip determines the last block, and its link the tip before it.
      rw [tip_append_singleton, tip_append_singleton, Option.some.injEq] at htip
      have hlast := hinj block (by simp) other (by simp) htip
      rw [linked_append_singleton] at hfirst hsecond
      have hbefore : tip digest start blocks = tip digest start others := by
        rw [← hfirst.2, ← hsecond.2, hlast]
      have hrest := ih (fun b hb o ho => hinj b (List.mem_append_left _ hb) o
          (List.mem_append_left _ ho)) hfirst.1 hsecond.1 (by simpa using hlength) hbefore
      rw [hrest, hlast]

end ProofOps.Foundation.HashChain
