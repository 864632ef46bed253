/-!
# Post status
-/
namespace Gazette

/-- Where a post stands in its life. -/
inductive PostStatus
  | draft
  | published
  | archived
deriving DecidableEq, Repr, Inhabited

namespace PostStatus

def word : PostStatus → String
  | draft => "draft"
  | published => "published"
  | archived => "archived"

/-- The status a word stands for. Case and surrounding space matter. -/
def ofWord? (s : String) : Option PostStatus :=
  if s = "draft" then some draft
  else if s = "published" then some published
  else if s = "archived" then some archived
  else none

@[simp] theorem ofWord?_word (s : PostStatus) : ofWord? s.word = some s := by
  cases s <;> rfl

theorem word_of_ofWord? {w : String} {s : PostStatus} (h : ofWord? w = some s) : s.word = w := by
  unfold ofWord? at h
  repeat' split at h
  all_goals simp_all [word]
  all_goals subst h; rfl

end PostStatus
end Gazette
