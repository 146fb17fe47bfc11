import TablePlanner.Plan.Basic
import TablePlanner.Prompt.Mention
import TablePlanner.Table.Schema

namespace TablePlanner.Prompt
open Vocabulary

/-- What a detector may look at: the lowercased prompt, the schema, and the numbers that it may
read as a count of rows. -/
structure Context where
  text : List Char
  schema : Schema
  candidates : List Int

def Context.of (prompt : String) (schema : Schema) (candidates : List Int) : Context :=
  ⟨Text.lower prompt.toList, schema, candidates⟩

structure Detector where
  name : String
  /-- Whether it is asked even when a detector before it gave a recipe. -/
  unconditional : Bool
  detect : Context → Option Recipe

def selectAll (ctx : Context) : Operation := .select ctx.schema.columns

def topAmountRecipe? (ctx : Context) : Option Recipe := do
  let amount ← ctx.schema.findColumn? amountColumn
  guard (mentionsAny ctx.text topPhrases)
  let operations := [selectAll ctx, .orderBy amount .descending]
  match requestedCount? ctx.text ctx.candidates with
  | some n =>
    return ⟨"top_amount_table", amount ++ " 상위 " ++ countText n ++ "건", operations ++ [.limit n]⟩
  | none => return ⟨"top_amount_table", amount ++ " 높은 순", operations⟩

structure Category where
  name : String
  label : String
  columnKeywords : List String
  values : List (String × String)

def Category.region : Category := ⟨"region_filter", "지역", regionColumn, regionValues⟩

def Category.category : Category := ⟨"category_filter", "카테고리", categoryColumn, categoryValues⟩

def Category.payment : Category := ⟨"payment_filter", "결제수단", paymentColumn, paymentValues⟩

def Category.recipe? (c : Category) (ctx : Context) : Option Recipe := do
  let column ← ctx.schema.findColumn? c.columnKeywords
  let value ← firstValue? ctx.text c.values
  return ⟨c.name ++ "_table", c.label ++ " 필터: " ++ value,
    [.filter column (.string value), selectAll ctx]⟩

/-- The column to group by: that of the first mentioned suffix which finds one, else a column of a
usual kind, else the first. -/
def groupKey? (ctx : Context) : Option String :=
  let mentioned := groupSuffixes.filter fun p => mentions ctx.text p.1
  mentioned.findSome? (fun p => ctx.schema.findColumn? p.2)
    <|> ctx.schema.findColumn? genericGroupColumn
    <|> ctx.schema.columns.head?

/-- Totals of the amounts in each group, or its number of rows if no other column has amounts. -/
def groupSummaryRecipe? (ctx : Context) : Option Recipe := do
  guard (mentionsAny ctx.text aggregatePhrases)
  let key ← groupKey? ctx
  let aggregation : Aggregation :=
    match (ctx.schema.findColumn? amountColumn).filter (· != key) with
    | some amount => ⟨amount, .sum, sumLabel⟩
    | none => ⟨key, .count, countLabel⟩
  let label := aggregation.label
  return ⟨"group_summary_table", key ++ "별 " ++ label,
    [.groupBy [key] [aggregation], .orderBy label .descending]⟩

/-- The usual fields that some column name holds, ordered by the first of them downwards. -/
def detailRecipe? (ctx : Context) : Option Recipe := do
  guard (mentionsAny ctx.text detailPhrases)
  let fields := detailFields.filter ctx.schema.mentions
  let first ← fields.head?
  return ⟨"detail_table", "상세 내역", [.select fields, .orderBy first .descending]⟩

namespace Detector

def topAmount : Detector := ⟨"top_amount", false, topAmountRecipe?⟩

def ofCategory (c : Category) : Detector := ⟨c.name, false, c.recipe?⟩

def groupSummary : Detector := ⟨"group_summary", false, groupSummaryRecipe?⟩

def detail : Detector := ⟨"detail", true, detailRecipe?⟩

def standard : List Detector :=
  [topAmount, ofCategory .region, ofCategory .category, ofCategory .payment, groupSummary, detail]

end Detector
end TablePlanner.Prompt
