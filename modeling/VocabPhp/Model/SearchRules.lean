import VocabPhp.Table

/-!
# Fields that a search engine asks for

For rich search results, Google requires and recommends fields of some classes. The rules are a
fixed table by class name; a class with ancestors is under the rules of all of them.
-/

namespace VocabPhp

/-- The fields asked for. -/
structure SearchRules where
  required : List String
  recommended : List String
  deriving DecidableEq, Repr

namespace SearchRules

/-- The rule for a class. -/
def forClass? : String → Option SearchRules
  | "Thing" => some ⟨["name", "description"], ["url", "image"]⟩
  | "Article" | "NewsArticle" | "BlogPosting" =>
    some ⟨["author", "datePublished", "headline", "image", "publisher"],
      ["dateModified", "mainEntityOfPage"]⟩
  | "SocialMediaPosting" => some ⟨["datePublished", "headline", "image"], []⟩
  | "LiveBlogPosting" => some ⟨[], ["coverageEndTime", "coverageStartTime"]⟩
  | _ => none

/-- Names in increasing order, each once. -/
def sortedNames (names : List String) : List String :=
  (names.foldl NameSet.add (∅ : NameSet)).keys

/-- The rules of all classes on a chain. -/
def ofChain (chain : List String) : SearchRules :=
  let rules := chain.filterMap forClass?
  ⟨sortedNames (rules.flatMap required), sortedNames (rules.flatMap recommended)⟩

end SearchRules

end VocabPhp
