import TablePlanner.Proofs.Prompt.Detected
import TablePlanner.Proofs.Service.Step

/-! The name of an output is a word, an underscore and the name of the source. With its underscore
no word is the start of another or of a part at the end of another, so the name tells both. -/
namespace TablePlanner
open Prompt

namespace Service

def outputWords : List String := "smart" :: defaultRecipeId :: recipeIds

def outputName (word file : String) : String := word ++ "_" ++ file

theorem toList_outputName (word file : String) :
    (outputName word file).toList = word.toList ++ '_' :: file.toList := by
  simp [outputName]

theorem length_outputName (word file : String) :
    (outputName word file).length = word.length + file.length + 1 := by
  simp only [← String.length_toList, toList_outputName, List.length_append, List.length_cons]
  omega

/-- A word that is cut at its front agrees with another up to the underscore only if nothing was cut
and the two are one. -/
theorem outputWords_apart : ∀ word ∈ outputWords, ∀ other ∈ outputWords, ∀ n ≤ word.toList.length,
    word.toList.drop n ++ ['_'] <+: other.toList ++ ['_'] ∨
      other.toList ++ ['_'] <+: word.toList.drop n ++ ['_'] → n = 0 ∧ word = other := by
  decide +kernel

section
variable {word other file source : String}

theorem eq_of_overlap (hword : word ∈ outputWords) (hother : other ∈ outputWords)
    {front : List Char}
    (h : (outputName word file).toList = front ++ (outputName other source).toList)
    (hfront : front.length ≤ word.toList.length) :
    front = [] ∧ word = other ∧ file = source := by
  rw [toList_outputName, toList_outputName] at h
  have hcut : front <+: word.toList :=
    List.prefix_of_prefix_length_le ⟨_, h.symm⟩ (List.prefix_append _ _) hfront
  obtain ⟨back, hback⟩ := hcut
  have hdrop : word.toList.drop front.length = back := by rw [← hback, List.drop_left]
  have hrest : back ++ '_' :: file.toList = other.toList ++ '_' :: source.toList := by
    rw [← hback, List.append_assoc] at h
    exact List.append_cancel_left h
  have hbackPrefix : back ++ ['_'] <+: other.toList ++ '_' :: source.toList :=
    ⟨file.toList, by simpa using hrest⟩
  have hotherPrefix : other.toList ++ ['_'] <+: other.toList ++ '_' :: source.toList :=
    ⟨source.toList, by simp⟩
  have happart := outputWords_apart word hword other hother front.length hfront
  rw [hdrop] at happart
  obtain ⟨hzero, hsame⟩ := happart (List.prefix_or_prefix_of_prefix hbackPrefix hotherPrefix)
  have hnil : front = [] := List.eq_nil_of_length_eq_zero hzero
  rw [hnil, List.nil_append] at hback
  rw [hback, hsame] at hrest
  have hfiles : file.toList = source.toList := by
    simpa using List.append_cancel_left hrest
  exact ⟨hnil, hsame, String.toList_inj.1 hfiles⟩

theorem outputName_inj (hword : word ∈ outputWords) (hother : other ∈ outputWords)
    (h : outputName word file = outputName other source) : word = other ∧ file = source := by
  have hnil : (outputName word file).toList = [] ++ (outputName other source).toList := by
    rw [h, List.nil_append]
  exact (eq_of_overlap hword hother hnil (Nat.zero_le _)).2

theorem outputName_ne (word file : String) : outputName word file ≠ file := by
  intro h
  have hlength := congrArg String.length h
  rw [length_outputName] at hlength
  omega

theorem outputName_ne_transform (hword : word ∈ outputWords) (file output : String) :
    outputName word file ≠ "transform_" ++ output := by
  intro h
  have happart : ∀ word ∈ outputWords, ¬ (word.toList <+: "transform_".toList ∨
      "transform_".toList <+: word.toList) := by decide
  have hlists := congrArg String.toList h
  rw [toList_outputName, String.toList_append] at hlists
  exact happart word hword <| List.prefix_or_prefix_of_prefix
    (List.prefix_append word.toList ('_' :: file.toList)) (hlists ▸ List.prefix_append _ _)

end

end Service
end TablePlanner
