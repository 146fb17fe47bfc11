/-! Latin words are lowercase and stand for whole words of a lowercased prompt, Hangul words for
parts of words too. Column keywords are looked for inside lowercased column names. -/
namespace TablePlanner.Vocabulary

def amountColumn : List String :=
  ["amount", "금액", "price", "비용", "amt", "매출", "가격", "sales", "cost"]

def topPhrases : List String :=
  ["top", "highest", "most expensive", "largest", "상위", "가장 비싼", "가장 큰", "가장 많은",
   "최고", "최대", "높은 순", "큰 순"]

def countSuffixes : List String :=
  ["개", "건", "위"]

def countLeads : List String :=
  ["top ", "top", "상위 ", "상위"]

def regionColumn : List String :=
  ["region", "지역", "city", "도시", "area", "지점"]

/-- The stored region that each word of a prompt stands for. -/
def regionValues : List (String × String) :=
  [("서울", "Seoul"), ("seoul", "Seoul"), ("부산", "Busan"), ("busan", "Busan"), ("대구", "Daegu"),
   ("daegu", "Daegu"), ("인천", "Incheon"), ("incheon", "Incheon"), ("광주", "Gwangju"),
   ("gwangju", "Gwangju"), ("대전", "Daejeon"), ("daejeon", "Daejeon"), ("울산", "Ulsan"),
   ("ulsan", "Ulsan"), ("세종", "Sejong"), ("sejong", "Sejong"), ("제주", "Jeju"), ("jeju", "Jeju")]

def categoryColumn : List String :=
  ["category", "카테고리", "분류", "품목", "업종"]

def categoryValues : List (String × String) :=
  [("식비", "Food"), ("food", "Food"), ("교통", "Transport"), ("transport", "Transport"),
   ("숙박", "Lodging"), ("lodging", "Lodging"), ("사무용품", "Office"), ("office", "Office"),
   ("전자", "Electronics"), ("electronics", "Electronics"), ("의류", "Clothing"),
   ("clothing", "Clothing")]

def paymentColumn : List String :=
  ["payment", "결제", "method", "수단", "pay"]

def paymentValues : List (String × String) :=
  [("카드", "Card"), ("card", "Card"), ("현금", "Cash"), ("cash", "Cash"), ("계좌이체", "Transfer"),
   ("이체", "Transfer"), ("transfer", "Transfer")]

def aggregatePhrases : List String :=
  ["그룹", "group", "별로", "별 ", "합계", "집계", "총합", "평균", "건수", "sum", "total",
   "aggregate", "count", "summary", "요약"]

def departmentColumn : List String :=
  ["dept", "department", "부서"]

def statusColumn : List String :=
  ["status", "상태"]

def dateColumn : List String :=
  ["date", "날짜", "일자", "month", "월"]

def merchantColumn : List String :=
  ["merchant", "가맹점", "거래처", "store", "상호"]

/-- The suffix that asks for groups by something, and the keywords of the column it means. -/
def groupSuffixes : List (String × List String) :=
  [("지역별", regionColumn), ("도시별", regionColumn), ("부서별", departmentColumn),
   ("카테고리별", categoryColumn), ("분류별", categoryColumn), ("품목별", categoryColumn),
   ("상태별", statusColumn), ("결제수단별", paymentColumn), ("가맹점별", merchantColumn),
   ("월별", dateColumn), ("날짜별", dateColumn)]

/-- Keywords of the column to group by when no suffix finds one. -/
def genericGroupColumn : List String :=
  ["category", "department", "dept", "region", "status"]

def detailPhrases : List String :=
  ["상세", "내역", "detail", "목록", "리스트", "list"]

def detailFields : List String :=
  ["Date", "Merchant", "Amount", "Status"]

def sumLabel : String := "합계"

def countLabel : String := "건수"

/-- Words any of which makes a prompt worth planning for. -/
def intentTokens : List String :=
  ["필터", "정렬", "그룹", "보여", "추출", "계산", "요약", "분석", "찾아", "만들어", "변환", "합쳐",
   "filter", "sort", "group", "show", "list", "calculate", "extract", "find", "summar", "analy",
   "이상", "이하", "초과", "미만", "보다", "높은", "낮은", "상위", "하위", "최대", "최소", "가장",
   "top", "highest", "lowest", "greater", "less", "most", "least", "매출", "금액", "비용", "가격",
   "지역", "부서", "카테고리", "상태", "날짜", "거래", "가맹점", "결제", "합계", "평균", "건수",
   "내역", "상세", "보고서", "데이터", "amount", "sales", "price", "cost", "region", "category",
   "status", "date", "merchant", "payment", "total", "sum", "average", "count", "detail", "report",
   "data", "서울", "부산", "대구", "인천", "광주", "대전", "울산", "세종", "제주", "seoul", "busan",
   "daegu", "incheon", "gwangju", "daejeon", "ulsan", "sejong", "jeju", "만원", "천원", "억",
   "개월", "퍼센트", "percent"]

end TablePlanner.Vocabulary
