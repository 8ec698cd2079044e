/-!
# Known Names

The names test code may use without importing anything: the keywords of the standard libraries, the
control words and the settings.
-/

namespace KeywordDocs.Highlight

def standardNames : List String :=
  ["Add Element", "Add Time To Date", "Add Time To Time", "Append To Environment Variable",
   "Append To File", "Append To List", "Call Method", "Catenate", "Clear Element",
   "Close All Connections", "Close Connection", "Combine Lists", "Comment", "Continue For Loop",
   "Continue For Loop If", "Convert Date", "Convert Time", "Convert To Binary",
   "Convert To Boolean", "Convert To Bytes", "Convert To Dictionary", "Convert To Hex",
   "Convert To Integer", "Convert To List", "Convert To Lower Case", "Convert To Number",
   "Convert To Octal", "Convert To String", "Convert To Title Case", "Convert To Upper Case",
   "Copy Dictionary", "Copy Directory", "Copy Element", "Copy File", "Copy Files", "Copy List",
   "Count Directories In Directory", "Count Files In Directory", "Count Items In Directory",
   "Count Values In List", "Create Binary File", "Create Dictionary", "Create Directory",
   "Create File", "Create List", "Decode Bytes To String", "Dictionaries Should Be Equal",
   "Dictionary Should Contain Item", "Dictionary Should Contain Key",
   "Dictionary Should Contain Sub Dictionary", "Dictionary Should Contain Value",
   "Dictionary Should Not Contain Key", "Dictionary Should Not Contain Value",
   "Directory Should Be Empty", "Directory Should Exist", "Directory Should Not Be Empty",
   "Directory Should Not Exist", "Element Attribute Should Be",
   "Element Attribute Should Match", "Element Should Exist", "Element Should Not Exist",
   "Element Should Not Have Attribute", "Element Text Should Be", "Element Text Should Match",
   "Element To String", "Elements Should Be Equal", "Elements Should Match", "Empty Directory",
   "Encode String To Bytes", "Environment Variable Should Be Set",
   "Environment Variable Should Not Be Set", "Evaluate", "Evaluate Xpath", "Execute Command",
   "Execute Manual Step", "Exit For Loop", "Exit For Loop If", "Fail", "Fatal Error",
   "Fetch From Left", "Fetch From Right", "File Should Be Empty", "File Should Exist",
   "File Should Not Be Empty", "File Should Not Exist", "Format String",
   "Generate Random String", "Get Binary File", "Get Child Elements", "Get Count",
   "Get Current Date", "Get Dictionary Items", "Get Dictionary Keys", "Get Dictionary Values",
   "Get Element", "Get Element Attribute", "Get Element Attributes", "Get Element Count",
   "Get Element Text", "Get Elements", "Get Elements Texts", "Get Environment Variable",
   "Get Environment Variables", "Get File", "Get File Size", "Get From Dictionary",
   "Get From List", "Get Index From List", "Get Length", "Get Library Instance", "Get Line",
   "Get Line Count", "Get Lines Containing String", "Get Lines Matching Pattern",
   "Get Lines Matching Regexp", "Get Match Count", "Get Matches", "Get Modified Time",
   "Get Process Id", "Get Process Object", "Get Process Result", "Get Regexp Matches",
   "Get Selection From User", "Get Selections From User", "Get Slice From List",
   "Get Substring", "Get Time", "Get Value From User", "Get Variable Value", "Get Variables",
   "Grep File", "Import Library", "Import Resource", "Import Variables", "Insert Into List",
   "Is Process Running", "Join Command Line", "Join Path", "Join Paths", "Keep In Dictionary",
   "Keyword Should Exist", "Length Should Be", "List Directories In Directory",
   "List Directory", "List Files In Directory", "List Should Contain Sub List",
   "List Should Contain Value", "List Should Not Contain Duplicates",
   "List Should Not Contain Value", "Lists Should Be Equal", "Log", "Log Dictionary",
   "Log Element", "Log Environment Variables", "Log File", "Log List", "Log Many",
   "Log To Console", "Log Variables", "Login", "Move Directory", "Move File", "Move Files",
   "No Operation", "Normalize Path", "Open Connection", "Parse Xml", "Pass Execution",
   "Pass Execution If", "Pause Execution", "Pop From Dictionary", "Process Should Be Running",
   "Process Should Be Stopped", "Read", "Read Until", "Read Until Prompt", "Read Until Regexp",
   "Regexp Escape", "Reload Library", "Remove Directory", "Remove Duplicates", "Remove Element",
   "Remove Element Attribute", "Remove Element Attributes", "Remove Elements",
   "Remove Elements Attribute", "Remove Elements Attributes", "Remove Environment Variable",
   "Remove File", "Remove Files", "Remove From Dictionary", "Remove From List", "Remove String",
   "Remove String Using Regexp", "Remove Tags", "Remove Values From List", "Repeat Keyword",
   "Replace String", "Replace String Using Regexp", "Replace Variables", "Return From Keyword",
   "Return From Keyword If", "Reverse List", "Run", "Run And Return Rc",
   "Run And Return Rc And Output", "Run Keyword", "Run Keyword And Continue On Failure",
   "Run Keyword And Expect Error", "Run Keyword And Ignore Error", "Run Keyword And Return",
   "Run Keyword And Return If", "Run Keyword And Return Status",
   "Run Keyword And Warn On Failure", "Run Keyword If", "Run Keyword If All Tests Passed",
   "Run Keyword If Any Tests Failed", "Run Keyword If Test Failed",
   "Run Keyword If Test Passed", "Run Keyword If Timeout Occurred", "Run Keyword Unless",
   "Run Keywords", "Run Process", "Save Xml", "Send Signal To Process", "Set Default Log Level",
   "Set Element Attribute", "Set Element Tag", "Set Element Text", "Set Elements Attribute",
   "Set Elements Tag", "Set Elements Text", "Set Encoding", "Set Environment Variable",
   "Set Global Variable", "Set Library Search Order", "Set List Value", "Set Local Variable",
   "Set Log Level", "Set Modified Time", "Set Newline", "Set Prompt",
   "Set Screenshot Directory", "Set Suite Documentation", "Set Suite Metadata",
   "Set Suite Variable", "Set Tags", "Set Task Variable", "Set Telnetlib Log Level",
   "Set Test Documentation", "Set Test Message", "Set Test Variable", "Set Timeout",
   "Set To Dictionary", "Set Variable", "Set Variable If", "Should Be Byte String",
   "Should Be Empty", "Should Be Equal", "Should Be Equal As Integers",
   "Should Be Equal As Numbers", "Should Be Equal As Strings", "Should Be Lower Case",
   "Should Be String", "Should Be Title Case", "Should Be True", "Should Be Unicode String",
   "Should Be Upper Case", "Should Contain", "Should Contain Any", "Should Contain Match",
   "Should Contain X Times", "Should End With", "Should Exist", "Should Match",
   "Should Match Regexp", "Should Not Be Empty", "Should Not Be Equal",
   "Should Not Be Equal As Integers", "Should Not Be Equal As Numbers",
   "Should Not Be Equal As Strings", "Should Not Be String", "Should Not Be True",
   "Should Not Contain", "Should Not Contain Any", "Should Not Contain Match",
   "Should Not End With", "Should Not Exist", "Should Not Match", "Should Not Match Regexp",
   "Should Not Start With", "Should Start With", "Skip", "Skip If", "Sleep", "Sort List",
   "Split Command Line", "Split Extension", "Split Path", "Split String",
   "Split String From Right", "Split String To Characters", "Split To Lines", "Start Process",
   "Strip String", "Subtract Date From Date", "Subtract Time From Date",
   "Subtract Time From Time", "Switch Connection", "Switch Process", "Take Screenshot",
   "Take Screenshot Without Embedding", "Terminate All Processes", "Terminate Process", "Touch",
   "Variable Should Exist", "Variable Should Not Exist", "Wait For Process",
   "Wait Until Created", "Wait Until Keyword Succeeds", "Wait Until Removed", "Write",
   "Write Bare", "Write Control Character", "Write Until Expected Output"]

def controlWords : List String :=
  ["IF", "ELSE IF", "ELSE", "END", "FOR", "IN", "IN RANGE", "IN ENUMERATE", "IN ZIP", "WHILE",
   "TRY", "EXCEPT", "FINALLY", "RETURN", "CONTINUE", "BREAK", "PASS", "FAIL", "VAR", "SKIP",
   "GROUP"]

def settingNames : List String :=
  ["Library", "Resource", "Variables", "Suite Setup", "Suite Teardown", "Test Setup",
   "Test Teardown", "Test Template", "Test Timeout", "Task Setup", "Task Teardown",
   "Task Template", "Task Timeout", "Documentation", "Metadata", "Force Tags", "Default Tags",
   "Keyword Tags", "Name", "Test Tags"]

end KeywordDocs.Highlight
